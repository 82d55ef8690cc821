import SturmRelay.Foundations.Brackets
import SturmRelay.Foundations.StreamReader

/-! # Framing of JSON-RPC messages

`internal/protocol/jsonrpc.go`: `ReadRaw` takes bytes one at a time, counts braces from the first
`0x7B` on, and returns what it has kept when the count comes back to zero. Braces inside strings
count like any others.

The stream is what the connection still has to deliver, and `fin` the error its reads end in. A call
returns its result together with the rest of the stream, also when it fails. -/

namespace SturmRelay
namespace JSONRPC
set_option autoImplicit false

/-- `1 << 20`. -/
def maxJSONRPCMessageSize : ℕ := 1048576

def openBrace : UInt8 := 0x7B
def closeBrace : UInt8 := 0x7D

inductive RawError (ε : Type)
  | read (e : ε)
  | tooLarge
  deriving DecidableEq, Repr

def RawError.message {ε : Type} (text : ε → String) : RawError ε → String
  | .read e => text e
  | .tooLarge => "JSON-RPC message exceeds max size (" ++ toString maxJSONRPCMessageSize ++ " bytes)"

/-- The variables of the loop. -/
structure RawState where
  buf : Bytes := []
  depth : ℤ := 0
  started : Bool := false
  deriving DecidableEq, Repr

def RawState.feed (b : UInt8) (s : RawState) : RawState :=
  let s :=
    if b = openBrace then { s with depth := s.depth + 1, started := true }
    else if b = closeBrace then if s.started then { s with depth := s.depth - 1 } else s
    else s
  if s.started then { s with buf := s.buf ++ [b] } else s

section Reader
variable {ε : Type} (fin : ε)

def readRawLoop : RawState → Bytes → Except (RawError ε) Bytes × Bytes
  | _, [] => (.error (.read fin), [])
  | s, b :: rest =>
    let s := s.feed b
    if s.started ∧ maxJSONRPCMessageSize < s.buf.length then (.error .tooLarge, rest)
    else if s.started ∧ s.depth = 0 then (.ok s.buf, rest)
    else readRawLoop s rest

def readRaw (stream : Bytes) : Except (RawError ε) Bytes × Bytes := readRawLoop fin {} stream

/-- `n` calls, one after the other. -/
def readRaws : ℕ → Bytes → List (Except (RawError ε) Bytes) × Bytes
  | 0, stream => ([], stream)
  | n + 1, stream =>
    ((readRaw fin stream).1 :: (readRaws n (readRaw fin stream).2).1,
      (readRaws n (readRaw fin stream).2).2)

/-! ## What is returned when -/

/-- The first group of a stream: `skipped` is in front of it, `rest` after it. -/
structure FirstGroup (stream skipped g rest : Bytes) : Prop where
  split : stream = skipped ++ g ++ rest
  skips : openBrace ∉ skipped
  group : Group openBrace closeBrace g

structure FramesBraces (stream : Bytes) : Prop where
  returns : ∀ g rest, readRaw fin stream = (.ok g, rest) ↔
    ∃ skipped, FirstGroup stream skipped g rest ∧ g.length ≤ maxJSONRPCMessageSize
  fails : (∃ e rest, readRaw fin stream = (.error e, rest)) ↔
    (¬ ∃ skipped g rest, FirstGroup stream skipped g rest) ∨
      ∃ skipped g rest, FirstGroup stream skipped g rest ∧ maxJSONRPCMessageSize < g.length
  consumed : ∀ e rest, readRaw fin stream = (.error e, rest) → ∃ skipped taken,
    stream = skipped ++ taken ++ rest ∧ openBrace ∉ skipped ∧
      (taken = [] ∨ taken.head? = some openBrace) ∧ taken.length ≤ maxJSONRPCMessageSize + 1

theorem FirstGroup.unique {stream skipped g rest skipped' g' rest' : Bytes}
    (h : FirstGroup stream skipped g rest) (h' : FirstGroup stream skipped' g' rest') :
    skipped = skipped' ∧ g = g' ∧ rest = rest' := by
  obtain ⟨t, ht⟩ := List.head?_eq_some_iff.mp h.group.opens
  obtain ⟨t', ht'⟩ := List.head?_eq_some_iff.mp h'.group.opens
  have he := h.split.symm.trans h'.split
  rw [ht, ht', List.append_assoc, List.append_assoc, List.cons_append, List.cons_append] at he
  obtain ⟨hs, hr⟩ := eq_of_append_cons h.skips h'.skips he
  have hg : g ++ rest = g' ++ rest' := by
    rw [ht, ht', List.cons_append, List.cons_append, hr]
  exact ⟨hs, h.group.eq_of_append h'.group hg⟩

/-! ## The loop -/

/-- The variables once `w` has been kept. -/
def scanning (w : Bytes) : RawState := ⟨w, w.count openBrace - w.count closeBrace, true⟩

theorem feed_idle {b : UInt8} (hb : b ≠ openBrace) : ({} : RawState).feed b = {} := by
  simp [RawState.feed, hb]

theorem feed_open : ({} : RawState).feed openBrace = scanning [openBrace] := by decide

theorem feed_scanning (w : Bytes) (b : UInt8) : (scanning w).feed b = scanning (w ++ [b]) := by
  have hne : openBrace ≠ closeBrace := by decide
  unfold RawState.feed scanning
  by_cases ho : b = openBrace
  · subst ho
    simp [hne]
    omega
  · by_cases hc : b = closeBrace
    · subst hc
      simp [hne.symm]
      omega
    · simp [ho, hc]

theorem readRawLoop_skip {skipped : Bytes} (h : openBrace ∉ skipped) (stream : Bytes) :
    readRawLoop fin {} (skipped ++ stream) = readRawLoop fin {} stream := by
  induction skipped with
  | nil => rfl
  | cons b skipped ih =>
    obtain ⟨hb, hskipped⟩ := not_or.mp (mt List.mem_cons.mpr h)
    rw [List.cons_append, readRawLoop, feed_idle (Ne.symm hb)]
    exact ih hskipped

theorem readRawLoop_scanning (w : Bytes) (b : UInt8) (rest : Bytes) :
    readRawLoop fin (scanning w) (b :: rest) =
      if maxJSONRPCMessageSize < (w ++ [b]).length then (.error .tooLarge, rest)
      else if (w ++ [b]).count openBrace = (w ++ [b]).count closeBrace then (.ok (w ++ [b]), rest)
      else readRawLoop fin (scanning (w ++ [b])) rest := by
  have hdepth : (scanning (w ++ [b])).depth = 0 ↔
      (w ++ [b]).count openBrace = (w ++ [b]).count closeBrace := by
    change ((w ++ [b]).count openBrace : ℤ) - (w ++ [b]).count closeBrace = 0 ↔ _
    omega
  have hstarted : (scanning (w ++ [b])).started = true := rfl
  rw [readRawLoop, feed_scanning]
  simp only [hdepth, hstarted, true_and]
  rfl

theorem readRaw_open (rest : Bytes) :
    readRaw fin (openBrace :: rest) = readRawLoop fin (scanning [openBrace]) rest := by
  rw [readRaw, readRawLoop, feed_open]
  rfl

theorem readRawLoop_unclosed {w v : Bytes} (hw : w ≠ []) (h : Unclosed openBrace closeBrace (w ++ v))
    (hlen : (w ++ v).length ≤ maxJSONRPCMessageSize) (rest : Bytes) :
    readRawLoop fin (scanning w) (v ++ rest) = readRawLoop fin (scanning (w ++ v)) rest := by
  induction v generalizing w with
  | nil => rw [List.append_nil, List.nil_append]
  | cons b v ih =>
    rw [List.append_cons] at h hlen ⊢
    have hone : Unclosed openBrace closeBrace (w ++ [b]) :=
      h.of_prefix (List.prefix_append _ _) (by simp)
    have hfits : ¬ maxJSONRPCMessageSize < (w ++ [b]).length := by
      rw [List.length_append] at hlen
      omega
    rw [List.cons_append, readRawLoop_scanning, if_neg hfits, if_neg hone.lt.ne']
    exact ih (by simp) h hlen

/-- Up to where an unclosed piece ends. -/
theorem readRaw_unclosed {skipped w : Bytes} (hskip : openBrace ∉ skipped)
    (h : Unclosed openBrace closeBrace w) (hlen : w.length ≤ maxJSONRPCMessageSize) (rest : Bytes) :
    readRaw fin (skipped ++ w ++ rest) = readRawLoop fin (scanning w) rest := by
  obtain ⟨t, rfl⟩ := List.head?_eq_some_iff.mp h.1
  rw [readRaw, List.append_assoc, readRawLoop_skip fin hskip]
  exact (readRaw_open fin _).trans (readRawLoop_unclosed fin (by simp) h hlen rest)

theorem readRaw_group {stream skipped g rest : Bytes} (h : FirstGroup stream skipped g rest)
    (hlen : g.length ≤ maxJSONRPCMessageSize) : readRaw fin stream = (.ok g, rest) := by
  have hne : openBrace ≠ closeBrace := by decide
  obtain ⟨hstream, hskip, hg⟩ := h
  obtain rfl | ⟨w, b, rfl⟩ := List.eq_nil_or_concat' g
  · cases hg.opens
  · have hw : w ≠ [] := by
      rintro rfl
      have hb : b = openBrace := Option.some.inj hg.opens
      have hbal := hg.balanced
      simp [hb, hne] at hbal
    have hopen : Unclosed openBrace closeBrace w :=
      hg.unclosed hne (List.prefix_append w [b]) hw (by simp)
    have hfits : w.length ≤ maxJSONRPCMessageSize := by
      rw [List.length_append] at hlen
      omega
    rw [hstream, ← List.append_assoc skipped, List.append_assoc,
      readRaw_unclosed fin hskip hopen hfits, List.singleton_append, readRawLoop_scanning,
      if_neg (not_lt.mpr hlen), if_pos hg.balanced]

/-- The three ways a call ends. -/
inductive RawOutcome (stream : Bytes) : Except (RawError ε) Bytes × Bytes → Prop
  | group {skipped g rest : Bytes} (h : FirstGroup stream skipped g rest)
      (hlen : g.length ≤ maxJSONRPCMessageSize) : RawOutcome stream (.ok g, rest)
  | ended {skipped w : Bytes} (hstream : stream = skipped ++ w) (hskip : openBrace ∉ skipped)
      (hw : w = [] ∨ Unclosed openBrace closeBrace w) (hlen : w.length ≤ maxJSONRPCMessageSize) :
      RawOutcome stream (.error (.read fin), [])
  | tooLarge {skipped w rest : Bytes} {b : UInt8} (hstream : stream = skipped ++ (w ++ [b]) ++ rest)
      (hskip : openBrace ∉ skipped) (hw : Unclosed openBrace closeBrace w)
      (hlen : w.length = maxJSONRPCMessageSize) : RawOutcome stream (.error .tooLarge, rest)

theorem readRaw_idle {stream : Bytes} (h : openBrace ∉ stream) :
    readRaw fin stream = (.error (.read fin), []) := by
  have hskip := readRawLoop_skip fin h []
  rw [List.append_nil] at hskip
  exact hskip

/-- A piece that is unclosed for longer than a message may be. -/
theorem outcome_tooLarge {stream skipped w rest : Bytes} (hstream : stream = skipped ++ w ++ rest)
    (hskip : openBrace ∉ skipped)
    (hw : Unclosed openBrace closeBrace (w.take maxJSONRPCMessageSize))
    (hlen : maxJSONRPCMessageSize < w.length) : RawOutcome fin stream (readRaw fin stream) := by
  have hn : (w.take maxJSONRPCMessageSize).length = maxJSONRPCMessageSize :=
    List.length_take_of_le hlen.le
  obtain ⟨b, t, ht⟩ := List.exists_cons_of_length_pos
    (l := w.drop maxJSONRPCMessageSize) (by rw [List.length_drop]; omega)
  have hsplit : stream = skipped ++ w.take maxJSONRPCMessageSize ++ (b :: (t ++ rest)) := by
    rw [hstream, ← List.cons_append, ← ht, List.append_assoc, List.append_assoc,
      ← List.append_assoc (w.take _), List.take_append_drop]
  have hread : readRaw fin stream = (.error .tooLarge, t ++ rest) := by
    rw [hsplit, readRaw_unclosed fin hskip hw hn.le, readRawLoop_scanning, if_pos]
    rw [List.length_append, hn]
    exact Nat.lt_succ_self _
  rw [hread]
  refine .tooLarge (b := b) ?_ hskip hw hn
  rw [hsplit]
  simp

theorem readRaw_outcome (stream : Bytes) : RawOutcome fin stream (readRaw fin stream) := by
  have hne : openBrace ≠ closeBrace := by decide
  by_cases hin : openBrace ∈ stream
  · obtain ⟨skipped, t, hstream, hskip⟩ := List.eq_append_cons_of_mem hin
    rcases unclosed_or_group (unclosed_singleton hne) t with hw | ⟨g, r, hgr, hg⟩
    · -- the stream ends before the group does
      have hsplit : stream = skipped ++ ([openBrace] ++ t) ++ [] := by
        rw [hstream, List.append_nil]
        rfl
      by_cases hlen : ([openBrace] ++ t).length ≤ maxJSONRPCMessageSize
      · rw [hsplit, readRaw_unclosed fin hskip hw hlen, readRawLoop]
        exact .ended (by rw [List.append_nil]) hskip (Or.inr hw) hlen
      · refine outcome_tooLarge fin hsplit hskip (hw.of_prefix (List.take_prefix _ _) ?_) (by omega)
        exact List.ne_nil_of_length_pos (by rw [List.length_take_of_le (by omega)]; decide)
    · have hfirst : FirstGroup stream skipped g r := by
        refine ⟨?_, hskip, hg⟩
        rw [hstream, List.append_assoc, ← hgr]
        rfl
      by_cases hlen : g.length ≤ maxJSONRPCMessageSize
      · rw [readRaw_group fin hfirst hlen]
        exact .group hfirst hlen
      · have hcut : (g.take maxJSONRPCMessageSize).length = maxJSONRPCMessageSize :=
          List.length_take_of_le (by omega)
        refine outcome_tooLarge fin hfirst.split hskip (hg.unclosed hne (List.take_prefix _ _) ?_ ?_)
          (by omega)
        · exact List.ne_nil_of_length_pos (by rw [hcut]; decide)
        · intro he
          rw [he] at hcut
          omega
  · rw [readRaw_idle fin hin]
    exact .ended (List.append_nil stream).symm hin (Or.inl rfl) (Nat.zero_le _)

/-! ## Framing -/

theorem framesBraces (stream : Bytes) : FramesBraces fin stream := by
  have hout := readRaw_outcome fin stream
  refine ⟨fun g rest => ⟨fun hread => ?_, ?_⟩, ⟨?_, ?_⟩, fun e rest hread => ?_⟩
  · rw [hread] at hout
    cases hout with
    | group h hlen => exact ⟨_, h, hlen⟩
  · rintro ⟨skipped, h, hlen⟩
    exact readRaw_group fin h hlen
  · rintro ⟨e, rest, hread⟩
    by_cases hex : ∃ skipped g rest, FirstGroup stream skipped g rest
    · obtain ⟨skipped, g, rest', h⟩ := hex
      refine Or.inr ⟨skipped, g, rest', h, ?_⟩
      by_contra hlen
      rw [readRaw_group fin h (not_lt.mp hlen)] at hread
      cases hread
    · exact Or.inl hex
  · intro hbad
    generalize hread : readRaw fin stream = r at hout
    cases hout with
    | group h hlen =>
      exfalso
      rcases hbad with hnone | ⟨skipped, g, rest, h', hlong⟩
      · exact hnone ⟨_, _, _, h⟩
      · obtain ⟨-, rfl, -⟩ := h.unique h'
        exact not_lt.mpr hlen hlong
    | ended hstream hskip hw hlen => exact ⟨_, _, rfl⟩
    | tooLarge hstream hskip hw hlen => exact ⟨_, _, rfl⟩
  · rw [hread] at hout
    cases hout with
    | @ended skipped w hstream hskip hw hlen =>
      refine ⟨skipped, w, ?_, hskip, hw.imp_right And.left, Nat.le_succ_of_le hlen⟩
      rw [List.append_nil, hstream]
    | @tooLarge skipped w _ b hstream hskip hw hlen =>
      refine ⟨skipped, w ++ [b], hstream, hskip, Or.inr ?_, ?_⟩
      · rw [List.head?_append_of_ne_nil w hw.ne_nil, hw.1]
      · rw [List.length_append, hlen]
        rfl

/-- A text that can be sent, with what is put in front of it. -/
structure Sendable (separator text : Bytes) : Prop where
  clean : openBrace ∉ separator
  group : Group openBrace closeBrace text
  fits : text.length ≤ maxJSONRPCMessageSize

theorem readRaws_sent {sent : List (Bytes × Bytes)} (hsent : ∀ m ∈ sent, Sendable m.1 m.2) (last : Bytes) :
    readRaws fin sent.length (sent.flatMap (fun m => m.1 ++ m.2) ++ last) =
      (sent.map fun m => .ok m.2, last) := by
  induction sent with
  | nil => rfl
  | cons m sent ih =>
    obtain ⟨hsep, htext, hfits⟩ := hsent m List.mem_cons_self
    have hfirst : FirstGroup ((m :: sent).flatMap (fun m => m.1 ++ m.2) ++ last) m.1 m.2
        (sent.flatMap (fun m => m.1 ++ m.2) ++ last) := by
      refine ⟨?_, hsep, htext⟩
      rw [List.flatMap_cons, List.append_assoc]
    rw [List.length_cons, readRaws, readRaw_group fin hfirst hfits,
      ih fun m' hm' => hsent m' (List.mem_cons_of_mem m hm'), List.map_cons]

/-- Every call returns the first group of the stream, if there is one that fits, and nothing but its
bytes and what is in front of it has been taken off the stream. -/
theorem readRaw_framing : (∀ stream, FramesBraces fin stream) ∧
    ∀ (sent : List (Bytes × Bytes)) (last : Bytes), (∀ m ∈ sent, Sendable m.1 m.2) →
      openBrace ∉ last →
      readRaws fin sent.length (sent.flatMap (fun m => m.1 ++ m.2) ++ last) =
        (sent.map fun m => .ok m.2, last) ∧ readRaw fin last = (.error (.read fin), []) :=
  ⟨framesBraces fin, fun _ last hsent hlast => ⟨readRaws_sent fin hsent last, readRaw_idle fin hlast⟩⟩

end Reader

instance (o c : UInt8) (w : Bytes) : Decidable (Group o c w) :=
  decidable_of_iff (w.head? = some o ∧ w.count o = w.count c ∧
    ∀ v ∈ w.inits, v ≠ [] → v ≠ w → v.count o ≠ v.count c) <| by
    simp only [List.mem_inits]
    exact ⟨fun h => ⟨h.1, h.2.1, h.2.2⟩, fun h => ⟨h.opens, h.balanced, h.first⟩⟩

/-- Two requests, the second one with an object in it, and a stray brace between them. -/
def twoRequests : List (Bytes × Bytes) :=
  [([0x0A], [0x7B, 0x61, 0x7D]), ([0x7D, 0x20], [0x7B, 0x7B, 0x62, 0x7D, 0x7D])]

theorem twoRequests_framed :
    readRaws EOF.eof 2 [0x0A, 0x7B, 0x61, 0x7D, 0x7D, 0x20, 0x7B, 0x7B, 0x62, 0x7D, 0x7D, 0x0A] =
      ([.ok [0x7B, 0x61, 0x7D], .ok [0x7B, 0x7B, 0x62, 0x7D, 0x7D]], [0x0A]) := by
  have hsent : ∀ m ∈ twoRequests, Sendable m.1 m.2 := by
    intro m hm
    simp only [twoRequests, List.mem_cons, List.not_mem_nil, or_false] at hm
    rcases hm with rfl | rfl
    · exact ⟨by decide, by decide, by decide⟩
    · exact ⟨by decide, by decide, by decide⟩
  exact ((readRaw_framing EOF.eof).2 twoRequests [0x0A] hsent (by decide)).1

end JSONRPC
end SturmRelay
