import SturmRelay.Foundations.StreamReader

/-! # Reading a stream that arrives in pieces

A connection hands over its bytes in pieces, cut wherever the network cuts them; a reader that asks
for a full buffer goes on reading until it has one. A `ReadScript` is a reader that takes its input
in no other way. It runs on a stream (`onStream`) and on the pieces of one (`onSegments`), and
`joined_onSegments` says that the cuts make no difference.

`readAll` runs a script over and over until it fails. On a stream of encoded values it returns the
values and stops where the stream ends (`readAll_encoded`). -/

namespace SturmRelay
set_option autoImplicit false

/-- A reader that asks for full buffers, one after the other. -/
inductive ReadScript (τ ε α : Type)
  | ret (a : α)
  | fail (e : ε)
  | readFull (n : ℕ) (onEOF : EOF → ε) (k : List τ → ReadScript τ ε α)

namespace ReadScript
variable {τ ε α : Type}

def onStream : ReadScript τ ε α → StreamReader τ ε α
  | ret a, s => .ok a s
  | fail e, _ => .err e
  | readFull n onEOF k, s =>
    match StreamReader.readFull n s with
    | .ok bs rest => (k bs).onStream rest
    | .err e => .err (onEOF e)
    | .panic f => .panic f

/-- Fill a buffer: `got` has been read and `n` elements are missing. One turn is one read, which
takes no more than one piece. -/
def fill (n : ℕ) (got : List τ) : List (List τ) → Outcome (List τ) EOF (List τ)
  | [] =>
    if n = 0 then .ok got []
    else if got.length = 0 then .err .eof
    else .err .unexpectedEOF
  | seg :: segs =>
    if n = 0 then .ok got (seg :: segs)
    else if seg.length ≤ n then fill (n - seg.length) (got ++ seg) segs
    else .ok (got ++ seg.take n) (seg.drop n :: segs)

def onSegments : ReadScript τ ε α → StreamReader (List τ) ε α
  | ret a, segs => .ok a segs
  | fail e, _ => .err e
  | readFull n onEOF k, segs =>
    match fill n [] segs with
    | .ok bs rest => (k bs).onSegments rest
    | .err e => .err (onEOF e)
    | .panic f => .panic f

/-- Run the script until it fails, at most `fuel` times: what was read, and the error if there was
one. -/
def readAll (p : ReadScript τ ε α) : ℕ → List (List τ) → List α × Option ε
  | 0, _ => ([], none)
  | fuel + 1, segs =>
    match p.onSegments segs with
    | .ok a rest => (a :: (readAll p fuel rest).1, (readAll p fuel rest).2)
    | .err e => ([], some e)
    | .panic _ => ([], none)

end ReadScript

/-- The outcome with the pieces of the rest put together. -/
def Outcome.joined {τ ε α : Type} : Outcome (List τ) ε α → Outcome τ ε α
  | .ok a rest => .ok a rest.flatten
  | .err e => .err e
  | .panic f => .panic f

theorem Outcome.joined_eq_ok {τ ε α : Type} {o : Outcome (List τ) ε α} {a : α} {rest : List τ} :
    o.joined = .ok a rest ↔ ∃ segs, o = .ok a segs ∧ segs.flatten = rest := by
  cases o with
  | ok b segs =>
    constructor
    · intro h
      cases h
      exact ⟨segs, rfl, rfl⟩
    · rintro ⟨_, h, rfl⟩
      cases h
      rfl
  | err e => simp [joined]
  | panic f => simp [joined]

theorem Outcome.joined_eq_err {τ ε α : Type} {o : Outcome (List τ) ε α} {e : ε} :
    o.joined = .err e ↔ o = .err e := by
  cases o <;> simp [joined]

namespace ReadScript
variable {τ ε α : Type}

/-! ## Scripts as stream readers -/

theorem onStream_fail (e : ε) : (fail e : ReadScript τ ε α).onStream = StreamReader.fail e := by
  funext s
  rw [onStream]
  rfl

theorem onStream_ite {c : Prop} [Decidable c] (p q : ReadScript τ ε α) :
    (if c then p else q).onStream = if c then p.onStream else q.onStream :=
  apply_ite onStream c p q

theorem onStream_readFull (n : ℕ) (onEOF : EOF → ε) (k : List τ → ReadScript τ ε α) :
    (readFull n onEOF k).onStream =
      (StreamReader.readFull n).wrap onEOF >>= fun bs => (k bs).onStream := by
  funext s
  change _ = StreamReader.bind _ _ s
  unfold StreamReader.bind StreamReader.wrap
  rw [onStream]
  cases StreamReader.readFull n s <;> rfl

/-- A script that ends with the buffer it has read. -/
theorem onStream_readFull_ret (n : ℕ) (onEOF : EOF → ε) :
    (readFull n onEOF ret : ReadScript τ ε (List τ)).onStream =
      (StreamReader.readFull n).wrap onEOF := by
  funext s
  unfold StreamReader.wrap
  rw [onStream]
  cases StreamReader.readFull n s <;> rfl

/-! ## Pieces -/

/-- Filling a buffer takes what is missing off the front of the joined pieces. -/
theorem joined_fill (n : ℕ) (got : List τ) (segs : List (List τ)) :
    (fill n got segs).joined =
      if n ≤ segs.flatten.length then .ok (got ++ segs.flatten.take n) (segs.flatten.drop n)
      else if (got ++ segs.flatten).length = 0 then .err .eof else .err .unexpectedEOF := by
  induction segs generalizing n got with
  | nil =>
    rw [fill]
    by_cases hn : n = 0
    · simp [hn, Outcome.joined]
    · by_cases hgot : got.length = 0 <;> simp [hn, hgot, Outcome.joined]
  | cons seg segs ih =>
    rw [fill, List.flatten_cons]
    by_cases hn : n = 0
    · simp [hn, Outcome.joined]
    · rw [if_neg hn]
      by_cases hseg : seg.length ≤ n
      · have hfit : n - seg.length ≤ segs.flatten.length ↔ n ≤ (seg ++ segs.flatten).length := by
          rw [List.length_append]
          omega
        rw [if_pos hseg, ih, List.take_append, List.drop_append, List.take_of_length_le hseg,
          List.drop_of_length_le hseg, List.append_assoc, List.append_assoc, List.nil_append]
        simp only [hfit]
      · have hlen : n ≤ (seg ++ segs.flatten).length := by
          rw [List.length_append]
          omega
        rw [if_neg hseg, if_pos hlen, List.take_append_of_le_length (by omega),
          List.drop_append_of_le_length (by omega)]
        rfl

theorem joined_fill_nil (n : ℕ) (segs : List (List τ)) :
    (fill n [] segs).joined = StreamReader.readFull n segs.flatten :=
  joined_fill n [] segs

/-- How the stream was cut makes no difference. -/
theorem joined_onSegments (p : ReadScript τ ε α) (segs : List (List τ)) :
    (p.onSegments segs).joined = p.onStream segs.flatten := by
  induction p generalizing segs with
  | ret a => rfl
  | fail e => rfl
  | readFull n onEOF k ih =>
    unfold onSegments onStream
    rw [← joined_fill_nil]
    cases fill n [] segs with
    | ok bs rest => exact ih bs rest
    | err e => rfl
    | panic f => rfl

theorem onSegments_eq_ok {p : ReadScript τ ε α} {segs : List (List τ)} {a : α} {rest : List τ}
    (h : p.onStream segs.flatten = .ok a rest) :
    ∃ segs', p.onSegments segs = .ok a segs' ∧ segs'.flatten = rest := by
  rw [← joined_onSegments] at h
  exact Outcome.joined_eq_ok.mp h

theorem onSegments_eq_err {p : ReadScript τ ε α} {segs : List (List τ)} {e : ε}
    (h : p.onStream segs.flatten = .err e) : p.onSegments segs = .err e := by
  rw [← joined_onSegments] at h
  exact Outcome.joined_eq_err.mp h

/-- A stream of encoded values, however it is cut, reads back as the values, up to its end. -/
theorem readAll_encoded {p : ReadScript τ ε α} (enc : α → List τ) {values : List α} {e : ε}
    (henc : ∀ a ∈ values, ∀ rest, p.onStream (enc a ++ rest) = .ok a rest)
    (hend : p.onStream [] = .err e) {fuel : ℕ} (hfuel : values.length < fuel)
    {segs : List (List τ)} (hsegs : segs.flatten = (values.map enc).flatten) :
    p.readAll fuel segs = (values, some e) := by
  induction values generalizing fuel segs with
  | nil =>
    obtain ⟨fuel, rfl⟩ : ∃ k, fuel = k + 1 := ⟨fuel - 1, by simp at hfuel; omega⟩
    rw [readAll, onSegments_eq_err (by rw [hsegs]; exact hend)]
  | cons a values ih =>
    obtain ⟨fuel, rfl⟩ : ∃ k, fuel = k + 1 := ⟨fuel - 1, by simp at hfuel; omega⟩
    have hhead : p.onStream segs.flatten = .ok a (values.map enc).flatten := by
      rw [hsegs, List.map_cons, List.flatten_cons]
      exact henc a (List.mem_cons_self ..) _
    obtain ⟨rest, hread, hrest⟩ := onSegments_eq_ok hhead
    have hfuel' : values.length < fuel := by
      rw [List.length_cons] at hfuel
      omega
    have htail := ih (fun b hb => henc b (List.mem_cons_of_mem a hb)) hfuel' hrest
    rw [readAll, hread]
    dsimp only
    rw [htail]

/-- If the encoded values are followed by something that does not read, no more than the values are
read. -/
theorem readAll_isPrefix {p : ReadScript τ ε α} (enc : α → List τ) {values : List α} {tail : List τ}
    {e : ε} (henc : ∀ a ∈ values, ∀ rest, p.onStream (enc a ++ rest) = .ok a rest)
    (hend : p.onStream tail = .err e) (fuel : ℕ) {segs : List (List τ)}
    (hsegs : segs.flatten = (values.map enc).flatten ++ tail) :
    (p.readAll fuel segs).1 <+: values := by
  induction values generalizing fuel segs with
  | nil =>
    cases fuel with
    | zero => exact List.nil_prefix
    | succ fuel =>
      have hfail : p.onStream segs.flatten = .err e := by
        rw [hsegs]
        exact hend
      have hnone : (p.readAll (fuel + 1) segs).1 = [] := by rw [readAll, onSegments_eq_err hfail]
      exact hnone.symm ▸ List.nil_prefix
  | cons a values ih =>
    cases fuel with
    | zero => exact List.nil_prefix
    | succ fuel =>
      have hhead : p.onStream segs.flatten = .ok a ((values.map enc).flatten ++ tail) := by
        rw [hsegs, List.map_cons, List.flatten_cons, List.append_assoc]
        exact henc a (List.mem_cons_self ..) _
      obtain ⟨rest, hread, hrest⟩ := onSegments_eq_ok hhead
      rw [readAll, hread]
      exact List.prefix_cons_inj a |>.mpr
        (ih (fun b hb => henc b (List.mem_cons_of_mem a hb)) fuel hrest)

end ReadScript
end SturmRelay
