import SturmRelay.Adapter.EchoLink

/-! # What the echoes of an ICE link tell, and what they cost

Three results about any run of the two ends of an ICE link:

* a round-trip time is the age of an echo that was at the other end and came back to the end that
  measured it, or the answerer's estimate from the age of an echo of the offerer. No packet of a game is
  ever taken for an echo: on this link game data has a prefix of its own;
* what is written to a game, the game at the other end has sent;
* echoes do not multiply: an echo of the offerer is worth at most three packets and one of the answerer
  at most two, and a packet that arrives once more at most two. -/

namespace SturmRelay
namespace Adapter
set_option autoImplicit false

/-! ## Where packets come from -/

section Origins
variable (gameAddr : Bool → Option AddrPort) (es : List ICEEvent) (o : Bool)

/-- When the `k`-th packet on its way to the end `o` arrives after the events, it is `packet` and is read. -/
def Reads (k : ℕ) (packet : Bytes) : Prop :=
  let s := runState ICELink.step (.start gameAddr) es
  (s.flight o)[k]? = some packet ∧ (s.ends o).phase = .reading

/-- The other end has read an echo that the end `o` sent at `sentMs`. -/
def Mirrored (sentMs : ℤ) : Prop :=
  Occurs (fun before ev => ∃ k again nowMs, ev = .arrive (!o) k again nowMs ∧
    Reads gameAddr before (!o) k (echoPacket (echoKind o) sentMs) ∧ .tick o sentMs ∈ before) es

/-- `rtt` is the age of an echo of the end `o` when it was read there, after the other end had read it. -/
def Aged (rtt : ℤ) : Prop :=
  Occurs (fun before ev => ∃ k again nowMs sentMs, ev = .arrive o k again nowMs ∧
    Reads gameAddr before o k (echoPacket (echoKind o) sentMs) ∧ Mirrored gameAddr before o sentMs ∧
    rtt = GameLink.int64 (nowMs - sentMs) ∧ 0 ≤ rtt ∧ rtt < 60000) es

/-- `rtt` is twice the age of an echo of the offerer when the answerer read it. -/
def Estimated (rtt : ℤ) : Prop :=
  Occurs (fun before ev => ∃ k again nowMs sentMs, ev = .arrive false k again nowMs ∧
    Reads gameAddr before false k (echoPacket (echoKind true) sentMs) ∧ .tick true sentMs ∈ before ∧
    0 ≤ GameLink.int64 (nowMs - sentMs) ∧ GameLink.int64 (nowMs - sentMs) < 30000 ∧
    rtt = GameLink.int64 (nowMs - sentMs) * 2) es

/-- The game at the end `o` has sent the packet. -/
def SentByGame (data : Bytes) : Prop :=
  ∃ remoteAddr datagram, .game o remoteAddr datagram ∈ es ∧ data = datagram.take gameBufLen

/-- What can be on its way to the end `o`: data of the other game, echoes of the other end, its own
echoes coming back, and reports. -/
inductive Came : Bytes → Prop
  | data {data : Bytes} (h : SentByGame es (!o) data) : Came (fafPrefixData :: data)
  | echo {sentMs : ℤ} (h : .tick (!o) sentMs ∈ es) : Came (echoPacket (echoKind (!o)) sentMs)
  | mirrored {sentMs : ℤ} (h : Mirrored gameAddr es o sentMs) : Came (echoPacket (echoKind o) sentMs)
  | report {rtt : ℤ} (h : Aged gameAddr es true rtt) : Came (rttReport rtt)

/-- Where the round-trip time of the end `o` comes from. -/
def RttKnown (e : GameLink) : Prop :=
  e.rttMs = 0 ∨
    if o then Aged gameAddr es true e.rttMs
    else e.rttEstimated = false ∧ (Aged gameAddr es false e.rttMs ∨ Aged gameAddr es true e.rttMs) ∨
      e.rttEstimated = true ∧ Estimated gameAddr es e.rttMs

end Origins

section Later
variable {gameAddr : Bool → Option AddrPort} {es : List ICEEvent} {o : Bool}

theorem Aged.later {rtt : ℤ} (h : Aged gameAddr es o rtt) (ev : ICEEvent) :
    Aged gameAddr (es ++ [ev]) o rtt := occurs_concat.mpr (Or.inl h)

theorem Estimated.later {rtt : ℤ} (h : Estimated gameAddr es rtt) (ev : ICEEvent) :
    Estimated gameAddr (es ++ [ev]) rtt := occurs_concat.mpr (Or.inl h)

theorem SentByGame.later {data : Bytes} (h : SentByGame es o data) (ev : ICEEvent) :
    SentByGame (es ++ [ev]) o data := by
  obtain ⟨remoteAddr, datagram, hmem, hdata⟩ := h
  exact ⟨remoteAddr, datagram, List.mem_append_left _ hmem, hdata⟩

theorem Came.later {packet : Bytes} (h : Came gameAddr es o packet) (ev : ICEEvent) :
    Came gameAddr (es ++ [ev]) o packet := by
  cases h with
  | data h => exact .data (h.later ev)
  | echo h => exact .echo (List.mem_append_left _ h)
  | mirrored h => exact .mirrored (occurs_concat.mpr (Or.inl h))
  | report h => exact .report (h.later ev)

theorem RttKnown.later {e e' : GameLink} (h : RttKnown gameAddr es o e) (hrtt : e'.rttMs = e.rttMs)
    (hest : e'.rttEstimated = e.rttEstimated) (ev : ICEEvent) : RttKnown gameAddr (es ++ [ev]) o e' := by
  unfold RttKnown at h ⊢
  rw [hrtt, hest]
  rcases h with hzero | h
  · exact Or.inl hzero
  · right
    cases o with
    | true => exact Aged.later h ev
    | false =>
      rcases h with ⟨hest, hown | hother⟩ | ⟨hest, h⟩
      · exact Or.inl ⟨hest, Or.inl (hown.later ev)⟩
      · exact Or.inl ⟨hest, Or.inr (hother.later ev)⟩
      · exact Or.inr ⟨hest, h.later ev⟩

theorem echoKind_inj {p q : Bool} (h : echoKind p = echoKind q) : p = q := by
  revert h
  cases p <;> cases q <;> decide

theorem echoKind_ne_data (p : Bool) : fafPrefixData ≠ echoKind p := by
  cases p <;> decide

theorem echoKind_ne_report (p : Bool) : fafPrefixRTTReport ≠ echoKind p := by
  cases p <;> decide

/-- Only echoes have the prefixes of echoes: one of the other end has come straight from there, and one of
the end's own has been read there. -/
theorem Came.of_kind {packet : Bytes} {p : Bool} (h : Came gameAddr es o packet)
    (hkind : packet.head? = some (echoKind p)) :
    ∃ sentMs, packet = echoPacket (echoKind p) sentMs ∧
      (p = !o ∧ .tick (!o) sentMs ∈ es ∨ p = o ∧ Mirrored gameAddr es o sentMs) := by
  cases h with
  | data h => exact absurd (Option.some.inj hkind) (echoKind_ne_data p)
  | @echo sentMs h =>
    have hp : (!o) = p := echoKind_inj (Option.some.inj hkind)
    exact ⟨sentMs, by rw [hp], Or.inl ⟨hp.symm, h⟩⟩
  | @mirrored sentMs h =>
    have hp : o = p := echoKind_inj (Option.some.inj hkind)
    exact ⟨sentMs, by rw [hp], Or.inr ⟨hp.symm, h⟩⟩
  | report h => exact absurd (Option.some.inj hkind) (echoKind_ne_report p)

theorem Came.of_other_kind {packet : Bytes} (h : Came gameAddr es o packet)
    (hkind : packet.head? = some (echoKind (!o))) :
    ∃ sentMs, packet = echoPacket (echoKind (!o)) sentMs ∧ .tick (!o) sentMs ∈ es := by
  obtain ⟨sentMs, hpacket, ⟨-, htick⟩ | ⟨ho, -⟩⟩ := h.of_kind hkind
  · exact ⟨sentMs, hpacket, htick⟩
  · exact absurd ho (ICELink.other_ne o)

theorem Came.of_own_kind {packet : Bytes} (h : Came gameAddr es o packet)
    (hkind : packet.head? = some (echoKind o)) :
    ∃ sentMs, packet = echoPacket (echoKind o) sentMs ∧ Mirrored gameAddr es o sentMs := by
  obtain ⟨sentMs, hpacket, ⟨ho, -⟩ | ⟨-, hmirrored⟩⟩ := h.of_kind hkind
  · exact absurd ho.symm (ICELink.other_ne o)
  · exact ⟨sentMs, hpacket, hmirrored⟩

theorem Came.aged_of_report {packet : Bytes} (h : Came gameAddr es o packet)
    (hkind : packet.head? = some fafPrefixRTTReport) : Aged gameAddr es true (beDecode packet.tail) := by
  cases h with
  | data h => exact absurd (Option.some.inj hkind) (by decide)
  | echo h => exact absurd (Option.some.inj hkind).symm (echoKind_ne_report _)
  | mirrored h => exact absurd (Option.some.inj hkind).symm (echoKind_ne_report _)
  | @report rtt h =>
    have hrange : 0 ≤ rtt ∧ rtt < 60000 := by
      obtain ⟨-, -, -, -, -, -, -, -, -, -, -, -, hrange⟩ := h
      exact hrange
    rw [beDecode_rttReport hrange.1 hrange.2]
    exact h

theorem Came.data_of_kind {data : Bytes} (h : Came gameAddr es o (fafPrefixData :: data)) :
    SentByGame es (!o) data := by
  generalize hpacket : fafPrefixData :: data = packet at h
  cases h with
  | data h =>
    obtain rfl := List.tail_eq_of_cons_eq hpacket
    exact h
  | echo h => exact absurd (List.head_eq_of_cons_eq hpacket) (echoKind_ne_data _)
  | mirrored h => exact absurd (List.head_eq_of_cons_eq hpacket) (echoKind_ne_data _)
  | report h => exact absurd (List.head_eq_of_cons_eq hpacket) (by decide)

end Later

/-! ## The answer of an end -/

section Reads
variable {gameAddr : Bool → Option AddrPort} {es : List ICEEvent} {o : Bool} {packet : Bytes} {k : ℕ}

/-- An echo of the other end that is read and sent back. -/
theorem Reads.mirrored (hreads : Reads gameAddr es o k packet) (hcame : Came gameAddr es o packet)
    (hkind : packet.head? = some (echoKind (!o))) (again : Bool) (nowMs : ℤ) :
    ∀ b ∈ [packet], Came gameAddr (es ++ [.arrive o k again nowMs]) (!o) b := by
  intro b hb
  obtain ⟨sentMs, hpacket, htick⟩ := hcame.of_other_kind hkind
  rw [List.mem_singleton.mp hb, hpacket]
  rw [hpacket] at hreads
  exact .mirrored (occurs_concat.mpr (Or.inr
    ⟨k, again, nowMs, by rw [Bool.not_not], by rwa [Bool.not_not], htick⟩))

/-- An echo of the end itself that is read: the other end has read it before. -/
theorem Reads.aged (hreads : Reads gameAddr es o k packet) (hcame : Came gameAddr es o packet)
    (hkind : packet.head? = some (echoKind o)) (again : Bool) (nowMs : ℤ) (hnonneg : 0 ≤ echoAge packet nowMs)
    (hlt : echoAge packet nowMs < 60000) :
    Aged gameAddr (es ++ [.arrive o k again nowMs]) o (echoAge packet nowMs) := by
  obtain ⟨sentMs, rfl, hmirrored⟩ := hcame.of_own_kind hkind
  rw [echoAge_echoPacket] at hnonneg hlt ⊢
  exact occurs_concat.mpr (Or.inr ⟨k, again, nowMs, sentMs, rfl, hreads, hmirrored, rfl, hnonneg, hlt⟩)

end Reads

/-- What an end sends in answer, and what it then knows, comes from where it should. -/
theorem reacts_authentic {gameAddr : Bool → Option AddrPort} {es : List ICEEvent} {o : Bool}
    {e e' : GameLink} {packet : Bytes} {nowMs : ℤ} {sent : List Bytes} {k : ℕ} (again : Bool)
    (ho : e.offerer = o) (hreads : Reads gameAddr es o k packet) (hcame : Came gameAddr es o packet)
    (hknown : RttKnown gameAddr es o e)
    (h : GameLink.Reacts e packet nowMs sent e'.rttMs e'.rttEstimated) :
    RttKnown gameAddr (es ++ [.arrive o k again nowMs]) o e' ∧
      ∀ b ∈ sent, Came gameAddr (es ++ [.arrive o k again nowMs]) (!o) b := by
  have hsend := fun hkind => hreads.mirrored hcame hkind again nowMs
  have haged := fun hkind => hreads.aged hcame hkind again nowMs
  generalize hrtt : e'.rttMs = rtt at h
  generalize hest : e'.rttEstimated = est at h
  cases h with
  | quiet => exact ⟨hknown.later hrtt hest _, fun b hb => absurd hb List.not_mem_nil⟩
  | measured htrue hkind hnonneg hlt =>
    obtain rfl : o = true := ho.symm.trans htrue
    have hage := haged hkind hnonneg hlt
    refine ⟨Or.inr ?_, ?_⟩
    · rw [if_pos rfl, hrtt]
      exact hage
    · intro b hb
      rw [List.mem_singleton.mp hb]
      exact .report hage
  | mirrored hfalse hkind =>
    obtain rfl : o = false := ho.symm.trans hfalse
    exact ⟨hknown.later hrtt hest _, hsend hkind⟩
  | estimated hfalse hkind hnonneg hlt =>
    obtain rfl : o = false := ho.symm.trans hfalse
    refine ⟨Or.inr ?_, hsend hkind⟩
    obtain ⟨sentMs, rfl, htick⟩ := hcame.of_other_kind hkind
    rw [echoAge_echoPacket] at hnonneg hlt hrtt
    rw [if_neg Bool.false_ne_true]
    exact Or.inr ⟨hest, occurs_concat.mpr (Or.inr
      ⟨k, again, nowMs, sentMs, rfl, hreads, htick, hnonneg, hlt, hrtt⟩)⟩
  | reflected htrue hkind =>
    obtain rfl : o = true := ho.symm.trans htrue
    exact ⟨hknown.later hrtt hest _, hsend hkind⟩
  | timed hfalse hkind hnonneg hlt =>
    obtain rfl : o = false := ho.symm.trans hfalse
    refine ⟨Or.inr ?_, fun b hb => absurd hb List.not_mem_nil⟩
    rw [if_neg Bool.false_ne_true, hrtt]
    exact Or.inl ⟨hest, Or.inl (haged hkind hnonneg hlt)⟩
  | reported hfalse hkind hlt =>
    obtain rfl : o = false := ho.symm.trans hfalse
    refine ⟨Or.inr ?_, fun b hb => absurd hb List.not_mem_nil⟩
    rw [if_neg Bool.false_ne_true, hrtt]
    exact Or.inl ⟨hest, Or.inr ((hcame.aged_of_report hkind).later _)⟩

/-- Game data makes an end send nothing and tells it nothing about the round-trip time. -/
theorem reacts_data {e : GameLink} {packet : Bytes} {nowMs rtt : ℤ} {est : Bool} {sent : List Bytes}
    (hdata : packet.head? = some fafPrefixData) (h : GameLink.Reacts e packet nowMs sent rtt est) :
    sent = [] ∧ rtt = e.rttMs ∧ est = e.rttEstimated := by
  have hkind : ∀ {kind : UInt8}, packet.head? = some kind → kind = fafPrefixData :=
    fun h => Option.some.inj (h.symm.trans hdata)
  cases h with
  | quiet => exact ⟨rfl, rfl, rfl⟩
  | measured _ h | mirrored _ h | estimated _ h | reflected _ h | timed _ h | reported _ h =>
    exact absurd (hkind h) (by decide)

/-! ## Runs -/

/-- The games' data, the echoes and the round-trip times are authentic. -/
structure ICEAuthentic (gameAddr : Bool → Option AddrPort) (es : List ICEEvent) (s : ICELink) : Prop where
  role : ∀ o, (s.ends o).offerer = o
  flight : ∀ o, ∀ b ∈ s.flight o, Came gameAddr es o b
  rtt : ∀ o, RttKnown gameAddr es o (s.ends o)
  sound : ∀ o, GameLink.Sound (s.ends o)
  payloads : ∀ o, ∀ d ∈ (s.ends o).written ++ (s.ends o).outstanding, d ≠ [] ∧ SentByGame es (!o) d

section Steps
variable {gameAddr : Bool → Option AddrPort} {es : List ICEEvent} {s : ICELink} {o : Bool}

theorem bool_cases {P : Bool → Prop} (o : Bool) (hself : P o) (hother : P (!o)) : ∀ p, P p := by
  intro p
  by_cases hp : p = o
  · exact hp ▸ hself
  · have : p = !o := by
      revert hp
      cases p <;> cases o <;> decide
    exact this ▸ hother

/-- One end takes a turn: it keeps its role, what it sends and knows is authentic, and what it newly
holds for its game is what the other game has sent. -/
theorem ICEAuthentic.setEnd (h : ICEAuthentic gameAddr es s) {ev : ICEEvent} {e : GameLink}
    {sent : List Bytes} {new : Option Bytes} (hrole : e.offerer = o)
    (hsent : e.toRemote = (s.ends o).toRemote ++ sent)
    (hcame : ∀ b ∈ sent, Came gameAddr (es ++ [ev]) (!o) b) (hknown : RttKnown gameAddr (es ++ [ev]) o e)
    (hdata : GameLink.Delivers (s.ends o) e new)
    (hnew : ∀ d, new = some d → d ≠ [] ∧ SentByGame (es ++ [ev]) (!o) d) :
    ICEAuthentic gameAddr (es ++ [ev]) (s.setEnd o e) where
  role := bool_cases o (by rw [ICELink.setEnd_ends_self]; exact hrole)
    (by rw [ICELink.setEnd_ends_other]; exact h.role _)
  flight := by
    refine bool_cases o ?_ ?_
    · rw [ICELink.setEnd_flight_self]
      exact fun b hb => (h.flight o b hb).later ev
    · rw [ICELink.setEnd_flight_other _ _ _ hsent]
      intro b hb
      rcases List.mem_append.mp hb with hb | hb
      · exact (h.flight _ b hb).later ev
      · exact hcame b hb
  rtt := bool_cases o (by rw [ICELink.setEnd_ends_self]; exact hknown)
    (by rw [ICELink.setEnd_ends_other]; exact (h.rtt _).later rfl rfl ev)
  sound := bool_cases o (by rw [ICELink.setEnd_ends_self]; exact hdata.sound)
    (by rw [ICELink.setEnd_ends_other]; exact h.sound _)
  payloads := by
    refine bool_cases o ?_ ?_
    · rw [ICELink.setEnd_ends_self, hdata.payloads]
      intro d hd
      rcases List.mem_append.mp hd with hd | hd
      · exact ⟨(h.payloads o d hd).1, (h.payloads o d hd).2.later ev⟩
      · exact hnew d (Option.mem_toList.mp hd)
    · rw [ICELink.setEnd_ends_other]
      exact fun d hd => ⟨(h.payloads _ d hd).1, (h.payloads _ d hd).2.later ev⟩

theorem ICEAuthentic.remove (h : ICEAuthentic gameAddr es s) (o : Bool) (k : ℕ) :
    ICEAuthentic gameAddr es (s.remove o k) :=
  { h with
    flight := by
      refine bool_cases o ?_ ?_
      · rw [ICELink.remove_flight_self]
        exact fun b hb => h.flight o b (List.mem_of_mem_eraseIdx hb)
      · rw [ICELink.remove_flight_other]
        exact h.flight (!o) }

theorem ICEAuthentic.later (h : ICEAuthentic gameAddr es s) (ev : ICEEvent) : ICEAuthentic gameAddr (es ++ [ev]) s where
  role := h.role
  flight o b hb := (h.flight o b hb).later ev
  rtt o := (h.rtt o).later rfl rfl ev
  sound := h.sound
  payloads o d hd := ⟨(h.payloads o d hd).1, (h.payloads o d hd).2.later ev⟩

/-- A data packet that arrives is the other game's. -/
theorem Came.sentByGame {p : ICEPacket} (h : Came gameAddr es o p.bytes) {d : Bytes}
    (hd : p.dataPayload = some d) : d ≠ [] ∧ SentByGame es (!o) d := by
  obtain ⟨hbytes, hne⟩ : p.bytes = fafPrefixData :: d ∧ d ≠ [] := by
    unfold ICEPacket.dataPayload at hd
    split at hd
    · cases hd
    · next kind payload hbytes =>
      split at hd
      · next hdata =>
        cases hd
        exact ⟨hdata.1 ▸ hbytes, hdata.2⟩
      · cases hd
  rw [hbytes] at h
  exact ⟨hne, h.data_of_kind⟩

theorem ICEAuthentic.arrive (h : ICEAuthentic gameAddr es s)
    (hs : s = runState ICELink.step (.start gameAddr) es) (o : Bool) (k : ℕ) (again : Bool) (nowMs : ℤ) :
    ICEAuthentic gameAddr (es ++ [.arrive o k again nowMs]) (s.arrive o k again nowMs) := by
  unfold ICELink.arrive
  cases hk : (s.flight o)[k]? with
  | none => exact h.later _
  | some packet =>
    have hcame : Came gameAddr es o packet := h.flight o packet (List.mem_of_getElem? hk)
    dsimp only
    by_cases hread : packet.length ≤ iceBufLen ∧ (s.ends o).phase = .reading
    · rw [dif_pos hread]
      obtain ⟨hrole, sent, hsent, hreacts⟩ :=
        GameLink.answers_receive (s.ends o) ⟨packet, hread.1⟩ nowMs
      have hreads : Reads gameAddr es o k packet := by
        unfold Reads
        rw [← hs]
        exact ⟨hk, hread.2⟩
      obtain ⟨hknown, hanswer⟩ :=
        reacts_authentic again (h.role o) hreads hcame (h.rtt o) hreacts
      have hdata := GameLink.delivers_receive (h.sound o) hread.2 ⟨packet, hread.1⟩ nowMs
      -- the end's turn is the same whether the packet stays on its way or not
      have hturn : ∀ left : ICELink, ICEAuthentic gameAddr es left → left.ends = s.ends →
          ICEAuthentic gameAddr (es ++ [.arrive o k again nowMs])
            (left.setEnd o ((s.ends o).receive ⟨packet, hread.1⟩ nowMs)) := by
        rintro ⟨ends, flight⟩ hleft hends
        obtain rfl : ends = s.ends := hends
        refine hleft.setEnd (hrole.trans (h.role o)) hsent hanswer hknown hdata ?_
        intro d hd
        have hpayload : (ICEPacket.mk packet hread.1).dataPayload = some d := by
          split at hd
          · cases hd
          · exact hd
        obtain ⟨hne, hgame⟩ := hcame.sentByGame (p := ⟨packet, hread.1⟩) hpayload
        exact ⟨hne, hgame.later _⟩
      cases again with
      | true => exact hturn s h rfl
      | false => exact hturn (s.remove o k) (h.remove o k) rfl
    · rw [dif_neg hread]
      exact h.later _

theorem ICEAuthentic.step (h : ICEAuthentic gameAddr es s)
    (hs : s = runState ICELink.step (.start gameAddr) es) (ev : ICEEvent) :
    ICEAuthentic gameAddr (es ++ [ev]) (s.step ev).1 := by
  cases ev with
  | tick o nowMs =>
    have hdata : GameLink.Delivers (s.ends o) ((s.ends o).sendEcho nowMs) none :=
      GameLink.SameData.delivers ⟨rfl, rfl, rfl, rfl⟩ (h.sound o)
    refine h.setEnd (h.role o) rfl ?_ ((h.rtt o).later rfl rfl _) hdata fun d hd => ?_
    · intro b hb
      have htick : .tick (!!o) nowMs ∈ es ++ [.tick o nowMs] := by simp
      have hecho : Came gameAddr (es ++ [.tick o nowMs]) (!o) (echoPacket (echoKind (!!o)) nowMs) :=
        .echo htick
      rw [Bool.not_not] at hecho
      rw [List.mem_singleton.mp hb, h.role o]
      exact hecho
    · cases hd
  | game o remoteAddr datagram =>
    have hturn : ((s.ends o).gamePacket remoteAddr (datagram.take gameBufLen)).offerer = o ∧
        ((s.ends o).gamePacket remoteAddr (datagram.take gameBufLen)).toRemote =
          (s.ends o).toRemote ++ [fafPrefixData :: datagram.take gameBufLen] ∧
        ((s.ends o).gamePacket remoteAddr (datagram.take gameBufLen)).rttMs = (s.ends o).rttMs ∧
        ((s.ends o).gamePacket remoteAddr (datagram.take gameBufLen)).rttEstimated =
          (s.ends o).rttEstimated := by
      unfold GameLink.gamePacket
      dsimp only
      repeat' split
      all_goals exact ⟨h.role o, rfl, rfl, rfl⟩
    obtain ⟨hrole, hsent, hrtt, hest⟩ := hturn
    refine h.setEnd hrole hsent ?_ ((h.rtt o).later hrtt hest _)
      ((GameLink.sameData_gamePacket _ _ _).delivers (h.sound o)) fun d hd => ?_
    · intro b hb
      rw [List.mem_singleton.mp hb]
      refine .data ⟨remoteAddr, datagram, List.mem_append_right _ ?_, rfl⟩
      rw [Bool.not_not]
      exact List.mem_singleton.mpr rfl
    · cases hd
  | advance o =>
    have hturn : (s.ends o).advance.offerer = o ∧
        (s.ends o).advance.toRemote = (s.ends o).toRemote ++ [] ∧
        (s.ends o).advance.rttMs = (s.ends o).rttMs ∧
        (s.ends o).advance.rttEstimated = (s.ends o).rttEstimated := by
      rw [List.append_nil]
      unfold GameLink.advance
      split <;> exact ⟨h.role o, rfl, rfl, rfl⟩
    obtain ⟨hrole, hsent, hrtt, hest⟩ := hturn
    refine h.setEnd hrole hsent (fun b hb => absurd hb List.not_mem_nil)
      ((h.rtt o).later hrtt hest _) (GameLink.delivers_advance (h.sound o)) fun d hd => ?_
    cases hd
  | arrive o k again nowMs => exact h.arrive hs o k again nowMs
  | lose o k => exact (h.remove o k).later _

theorem iceAuthentic_runState (gameAddr : Bool → Option AddrPort) (es : List ICEEvent) :
    ICEAuthentic gameAddr es (runState ICELink.step (ICELink.start gameAddr) es) := by
  induction es using List.reverseRecOn with
  | nil =>
    refine ⟨fun _ => rfl, fun _ b hb => absurd hb List.not_mem_nil, fun _ => Or.inl rfl,
      fun _ => ⟨Nat.zero_le _, fun _ _ hphase => ?_⟩, fun _ d hd => absurd hd List.not_mem_nil⟩
    cases hphase
  | append_singleton es ev ih =>
    rw [runState_append]
    exact ih.step rfl ev

end Steps

/-- The packets of a game make no difference to what an end sends and knows. -/
def DataInert (es : List ICEEvent) (o : Bool) (s : ICELink) : Prop :=
  ∀ k again nowMs data, (s.flight o)[k]? = some (fafPrefixData :: data) →
    SentByGame es (!o) data ∧
      ((s.arrive o k again nowMs).ends o).toRemote = (s.ends o).toRemote ∧
      ((s.arrive o k again nowMs).ends o).rttMs = (s.ends o).rttMs ∧
      ((s.arrive o k again nowMs).ends o).rttEstimated = (s.ends o).rttEstimated

theorem ICEAuthentic.dataInert {gameAddr : Bool → Option AddrPort} {es : List ICEEvent} {s : ICELink}
    (h : ICEAuthentic gameAddr es s) (o : Bool) : DataInert es o s := by
  intro k again nowMs data hk
  refine ⟨(h.flight o _ (List.mem_of_getElem? hk)).data_of_kind, ?_⟩
  unfold ICELink.arrive
  rw [hk]
  dsimp only
  split
  · next hread =>
    obtain ⟨-, sent, hsent, hreacts⟩ :=
      GameLink.answers_receive (s.ends o) ⟨fafPrefixData :: data, hread.1⟩ nowMs
    obtain ⟨rfl, hrtt, hest⟩ := reacts_data rfl hreacts
    rw [List.append_nil] at hsent
    cases again <;> simp only [if_true, if_false, Bool.false_eq_true, ICELink.setEnd_ends_self] <;>
      exact ⟨hsent, hrtt, hest⟩
  · exact ⟨rfl, rfl, rfl⟩

/-- The round-trip time at either end of an ICE link is the age of one of its own echoes that was read
at the other end and came back; at the answerer it may also be the offerer's, which the offerer has
reported, or an estimate that is marked as one. No packet of a game is taken for an echo or a report. -/
theorem iceRtt_authentic (gameAddr : Bool → Option AddrPort) (es : List ICEEvent) (o : Bool) :
    let s := runState ICELink.step (ICELink.start gameAddr) es
    RttKnown gameAddr es o (s.ends o) ∧ DataInert es o s :=
  ⟨(iceAuthentic_runState gameAddr es).rtt o, (iceAuthentic_runState gameAddr es).dataInert o⟩

example : ((runState ICELink.step (ICELink.start fun _ => none)
    [.tick true 100, .arrive false 0 false 103, .arrive true 0 false 110]).ends true).rttMs = 10 := by
  decide +kernel

/-- What an end writes to its game, the game at the other end has sent. -/
theorem iceData_authentic (gameAddr : Bool → Option AddrPort) (es : List ICEEvent) (o : Bool) :
    ∀ d ∈ ((runState ICELink.step (ICELink.start gameAddr) es).ends o).written,
      d ≠ [] ∧ SentByGame es (!o) d :=
  fun d hd => (iceAuthentic_runState gameAddr es).payloads o d (List.mem_append_left _ hd)

/-- The offerer's game sends two bytes, and the answerer, whose game is known, forwards them. -/
def shout : List ICEEvent :=
  [.game true ⟨.v4 0x7F000001, 6112⟩ [7, 8], .arrive false 0 false 0, .advance false]

theorem shout_authentic : [7, 8] ≠ ([] : Bytes) ∧ SentByGame shout true [7, 8] :=
  iceData_authentic (fun _ => some ⟨.v4 0x7F000001, 6112⟩) shout false [7, 8] (by decide +kernel)

/-! ## The number of echoes -/

/-- Not a packet of game data. -/
def isEcho (packet : Bytes) : Bool := packet.head? ≠ some fafPrefixData

/-- How many packets a packet on its way to an end can still cause. -/
def worth (o : Bool) (packet : Bytes) : ℕ :=
  if packet.head? = some fafPrefixEcho then (if o then 1 else 2)
  else if packet.head? = some fafPrefixAnswerEcho then (if o then 1 else 0)
  else 0

def worths (o : Bool) (packets : List Bytes) : ℕ := (packets.map (worth o)).sum

namespace ICELink

/-- The packets both ends have sent that are no game data. -/
def echoes (s : ICELink) : ℕ :=
  (s.ends true).toRemote.countP isEcho + (s.ends false).toRemote.countP isEcho

/-- What has been sent, and what is on its way may still cause. -/
def charge (s : ICELink) : ℕ :=
  s.echoes + worths true (s.flight true) + worths false (s.flight false)

end ICELink

/-- What an event may add to the charge. -/
def ICEEvent.cost : ICEEvent → ℕ
  | .tick o _ => if o then 3 else 2
  | .arrive _ _ again _ => if again then 2 else 0
  | _ => 0

section Charge
variable {s : ICELink} {o : Bool}

theorem worth_le_two (o : Bool) (packet : Bytes) : worth o packet ≤ 2 := by
  unfold worth
  repeat' split
  all_goals omega

theorem worths_append (o : Bool) (l l' : List Bytes) :
    worths o (l ++ l') = worths o l + worths o l' := by
  unfold worths
  rw [List.map_append, List.sum_append]

theorem worths_eraseIdx {l : List Bytes} {k : ℕ} {packet : Bytes} (h : l[k]? = some packet) :
    worths o (l.eraseIdx k) + worth o packet = worths o l := by
  induction l generalizing k with
  | nil => simp at h
  | cons b l ih =>
    cases k with
    | zero =>
      obtain rfl : b = packet := by simpa using h
      simp only [worths, List.eraseIdx_cons_zero, List.map_cons, List.sum_cons]
      omega
    | succ k =>
      have hrest := ih (k := k) (by simpa using h)
      simp only [worths, List.eraseIdx_cons_succ, List.map_cons, List.sum_cons] at hrest ⊢
      omega

theorem worths_eraseIdx_le (o : Bool) (l : List Bytes) (k : ℕ) :
    worths o (l.eraseIdx k) ≤ worths o l := by
  cases h : l[k]? with
  | none =>
    rw [List.eraseIdx_of_length_le (List.getElem?_eq_none_iff.mp h)]
  | some packet =>
    have := worths_eraseIdx (o := o) h
    omega

/-- The charge from the side of the end `o`. -/
theorem charge_eq (s : ICELink) (o : Bool) :
    s.charge = (s.ends o).toRemote.countP isEcho + (s.ends (!o)).toRemote.countP isEcho +
      worths o (s.flight o) + worths (!o) (s.flight (!o)) := by
  unfold ICELink.charge ICELink.echoes
  cases o with
  | true => rfl
  | false =>
    show _ = _ + List.countP isEcho (s.ends true).toRemote + _ + worths true (s.flight true)
    omega

/-- A turn of an end is charged for what it sends. -/
theorem charge_setEnd {e : GameLink} {sent : List Bytes}
    (h : e.toRemote = (s.ends o).toRemote ++ sent) :
    (s.setEnd o e).charge = s.charge + sent.countP isEcho + worths (!o) sent := by
  rw [charge_eq _ o, charge_eq s o, ICELink.setEnd_ends_self, ICELink.setEnd_ends_other,
    ICELink.setEnd_flight_self, ICELink.setEnd_flight_other _ _ _ h, h, List.countP_append,
    worths_append]
  omega

theorem charge_remove {k : ℕ} {packet : Bytes} (h : (s.flight o)[k]? = some packet) :
    (s.remove o k).charge + worth o packet = s.charge := by
  rw [charge_eq _ o, charge_eq s o, ICELink.remove_flight_self, ICELink.remove_flight_other,
    ICELink.remove_ends]
  have := worths_eraseIdx (o := o) h
  omega

theorem charge_remove_le (s : ICELink) (o : Bool) (k : ℕ) : (s.remove o k).charge ≤ s.charge := by
  rw [charge_eq _ o, charge_eq s o, ICELink.remove_flight_self, ICELink.remove_flight_other,
    ICELink.remove_ends]
  have := worths_eraseIdx_le o (s.flight o) k
  omega

/-- What a packet was worth pays for the answer to it. -/
theorem reacts_worth {e : GameLink} {packet : Bytes} {nowMs rtt : ℤ} {est : Bool}
    {sent : List Bytes} (ho : e.offerer = o) (h : GameLink.Reacts e packet nowMs sent rtt est) :
    sent.countP isEcho + worths (!o) sent ≤ worth o packet := by
  subst ho
  cases h with
  | quiet => exact Nat.zero_le _
  | measured ho hkind _ _ =>
    simp [ho, worths, worth, hkind, isEcho, rttReport, fafPrefixRTTReport, fafPrefixData,
      fafPrefixEcho, fafPrefixAnswerEcho]
  | mirrored ho hkind =>
    simp [ho, worths, worth, hkind, isEcho, fafPrefixData, fafPrefixEcho]
  | estimated ho hkind _ _ =>
    simp [ho, worths, worth, hkind, isEcho, fafPrefixData, fafPrefixEcho]
  | reflected ho hkind =>
    simp [ho, worths, worth, hkind, isEcho, fafPrefixData, fafPrefixEcho, fafPrefixAnswerEcho]
  | timed _ _ _ _ => exact Nat.zero_le _
  | reported _ _ _ => exact Nat.zero_le _

theorem charge_arrive (hrole : ∀ o, (s.ends o).offerer = o) (o : Bool) (k : ℕ) (again : Bool)
    (nowMs : ℤ) : (s.arrive o k again nowMs).charge ≤ s.charge + if again then 2 else 0 := by
  unfold ICELink.arrive
  cases hk : (s.flight o)[k]? with
  | none => exact Nat.le_add_right _ _
  | some packet =>
    dsimp only
    by_cases hread : packet.length ≤ iceBufLen ∧ (s.ends o).phase = .reading
    · rw [dif_pos hread]
      obtain ⟨-, sent, hsent, hreacts⟩ :=
        GameLink.answers_receive (s.ends o) ⟨packet, hread.1⟩ nowMs
      have hpaid := reacts_worth (hrole o) hreacts
      have htwo := worth_le_two o packet
      cases again with
      | true =>
        -- the packet stays on its way, so its worth is charged once more
        rw [if_pos rfl, if_pos rfl, charge_setEnd hsent]
        dsimp only at hpaid
        omega
      | false =>
        have hgone := charge_remove hk
        have hsent' : ((s.ends o).receive ⟨packet, hread.1⟩ nowMs).toRemote =
            ((s.remove o k).ends o).toRemote ++ sent := hsent
        rw [if_neg Bool.false_ne_true, if_neg Bool.false_ne_true, charge_setEnd hsent']
        dsimp only at hpaid
        omega
    · rw [dif_neg hread]
      exact Nat.le_add_right _ _

theorem charge_step (hrole : ∀ o, (s.ends o).offerer = o) (ev : ICEEvent) :
    (s.step ev).1.charge ≤ s.charge + ev.cost := by
  cases ev with
  | tick o nowMs =>
    have hsent : ((s.ends o).sendEcho nowMs).toRemote =
        (s.ends o).toRemote ++ [echoPacket (echoKind o) nowMs] := by
      unfold GameLink.sendEcho
      rw [hrole o]
      rfl
    show (s.setEnd o _).charge ≤ _
    rw [charge_setEnd hsent]
    cases o <;> simp [ICEEvent.cost, worths, worth, isEcho, echoPacket, echoKind, fafPrefixData,
      fafPrefixEcho, fafPrefixAnswerEcho]
  | game o remoteAddr datagram =>
    have hsent : ((s.ends o).gamePacket remoteAddr (datagram.take gameBufLen)).toRemote =
        (s.ends o).toRemote ++ [fafPrefixData :: datagram.take gameBufLen] := by
      unfold GameLink.gamePacket
      dsimp only
      repeat' split
      all_goals rfl
    show (s.setEnd o _).charge ≤ _
    rw [charge_setEnd hsent]
    simp [ICEEvent.cost, worths, worth, isEcho, fafPrefixData, fafPrefixEcho, fafPrefixAnswerEcho]
  | advance o =>
    have hsent : (s.ends o).advance.toRemote = (s.ends o).toRemote ++ [] := by
      rw [List.append_nil]
      unfold GameLink.advance
      split <;> rfl
    show (s.setEnd o _).charge ≤ _
    rw [charge_setEnd hsent]
    exact Nat.le_refl _
  | arrive o k again nowMs => exact charge_arrive hrole o k again nowMs
  | lose o k => exact charge_remove_le s o k

end Charge

/-- Echoes and their answers are at most three packets for every tick of the offerer and two for every
tick of the answerer, and two for every packet that the network delivers once more. -/
theorem echoes_bounded (gameAddr : Bool → Option AddrPort) (es : List ICEEvent) :
    (runState ICELink.step (ICELink.start gameAddr) es).echoes ≤ (es.map ICEEvent.cost).sum := by
  have hcharge : (runState ICELink.step (ICELink.start gameAddr) es).charge ≤
      (es.map ICEEvent.cost).sum := by
    induction es using List.reverseRecOn with
    | nil => exact Nat.le_refl _
    | append_singleton es ev ih =>
      have hstep := charge_step (iceAuthentic_runState gameAddr es).role ev
      rw [runState_append, List.map_append, List.sum_append, List.map_singleton,
        List.sum_singleton]
      exact hstep.trans (Nat.add_le_add_right ih _)
  unfold ICELink.charge at hcharge
  omega

end Adapter
end SturmRelay
