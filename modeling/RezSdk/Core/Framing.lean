import Mathlib.Data.List.Basic

/-!
# Frames in a stream

A stream carries frames: a header of a fixed length that says how long the
payload is, then the payload. The reader collects what arrives in a buffer and
takes out frames while there are whole ones. A header that announces too much
empties the buffer, and a frame whose handling throws ends the round.

* `delivered_all`: a stream of frames is delivered in order and exactly once,
  however it is cut, when no frame but the last throws.
* `delivered_tail`: what follows the frames changes nothing when no frame can
  be found in it after its first header.
* `calm_of_all`: without the first condition a stream in one piece is not
  delivered.
-/
namespace RezSdk.Framing

structure Format (α : Type) where
  header : Nat
  /-- what a header announces -/
  size : List α → Nat
  limit : Nat
  header_pos : 0 < header
  size_append : ∀ xs ys, header ≤ xs.length → size (xs ++ ys) = size xs

variable {α σ : Type}

namespace Format

variable (F : Format α)

/-- A frame with its header. -/
structure Whole (frame : List α) : Prop where
  le : F.size frame ≤ F.limit
  length : frame.length = F.header + F.size frame

/-- A header that announces too much stands at the front. -/
structure Oversized (buffer : List α) : Prop where
  header : F.header ≤ buffer.length
  lt : F.limit < F.size buffer

/-- The frame at the front of a buffer, when it is whole and not too large. -/
def next (buffer : List α) : Option (List α) :=
  if buffer.length < F.header ∨ F.limit < F.size buffer ∨ buffer.length < F.header + F.size buffer
    then none
  else some (buffer.take (F.header + F.size buffer))

/-- What a round leaves in the buffer. -/
def leftover (buffer : List α) : List α :=
  if F.header ≤ buffer.length ∧ F.limit < F.size buffer then [] else buffer

variable {F} {buffer frame rest : List α}

theorem Whole.header_le (h : F.Whole frame) : F.header ≤ frame.length := by
  rw [h.length]
  exact Nat.le_add_right _ _

theorem Whole.size_append (h : F.Whole frame) (rest : List α) :
    F.size (frame ++ rest) = F.size frame :=
  F.size_append frame rest h.header_le

theorem Whole.next (h : F.Whole frame) (rest : List α) : F.next (frame ++ rest) = some frame := by
  have hle := h.le
  have hlength := h.length
  unfold Format.next
  rw [h.size_append, List.length_append, if_neg (by omega), ← hlength, List.take_left]

theorem next_eq_some (h : F.next buffer = some frame) :
    F.Whole frame ∧ buffer = frame ++ buffer.drop frame.length := by
  unfold Format.next at h
  split at h
  · cases h
  · rename_i hnot
    have hlen : frame.length = F.header + F.size buffer := by
      rw [← Option.some.inj h, List.length_take]
      omega
    have hframe : frame = buffer.take frame.length := by
      rw [hlen]
      exact (Option.some.inj h).symm
    have hcut : buffer = frame ++ buffer.drop frame.length := by
      nth_rewrite 1 [← List.take_append_drop frame.length buffer]
      rw [← hframe]
    have hsize : F.size buffer = F.size frame := by
      nth_rewrite 1 [hcut]
      exact F.size_append frame _ (by omega)
    exact ⟨⟨by omega, by omega⟩, hcut⟩

/-- More bytes do not change the frame at the front. -/
theorem next_append (h : F.next buffer = some frame) (rest : List α) :
    F.next (buffer ++ rest) = some frame := by
  obtain ⟨hwhole, hcut⟩ := next_eq_some h
  rw [hcut, List.append_assoc]
  exact hwhole.next _

theorem next_prefix (h : F.next (buffer ++ rest) = none) : F.next buffer = none := by
  cases hnext : F.next buffer with
  | none => rfl
  | some frame =>
    rw [next_append hnext rest] at h
    cases h

theorem next_nil : F.next [] = none := by
  have hpos := F.header_pos
  unfold Format.next
  exact if_pos (.inl hpos)

theorem Oversized.append (h : F.Oversized buffer) (rest : List α) :
    F.Oversized (buffer ++ rest) := by
  have hheader := h.header
  refine ⟨?_, ?_⟩
  · rw [List.length_append]
    omega
  · rw [F.size_append buffer rest hheader]
    exact h.lt

theorem Oversized.take (h : F.Oversized buffer) {n : Nat} (hn : F.header ≤ n) :
    F.Oversized (buffer.take n) := by
  have hheader := h.header
  have hlen : F.header ≤ (buffer.take n).length := by
    rw [List.length_take]
    omega
  have hsize := F.size_append _ (buffer.drop n) hlen
  rw [List.take_append_drop] at hsize
  exact ⟨hlen, hsize ▸ h.lt⟩

theorem Oversized.next (h : F.Oversized buffer) : F.next buffer = none := by
  unfold Format.next
  exact if_pos (.inr (.inl h.lt))

theorem Oversized.leftover (h : F.Oversized buffer) : F.leftover buffer = [] :=
  if_pos ⟨h.header, h.lt⟩

theorem leftover_of_not (h : ¬F.Oversized buffer) : F.leftover buffer = buffer :=
  if_neg fun hover => h ⟨hover.1, hover.2⟩

/-- No whole frame starts with a header that announces too much. -/
theorem Whole.not_oversized (h : F.Whole frame) (rest : List α) : ¬F.Oversized (frame ++ rest) := by
  intro hover
  have hlt := hover.lt
  rw [h.size_append] at hlt
  exact absurd h.le (Nat.not_le.mpr hlt)

end Format

/-! ## The reader -/

structure Reader (σ α : Type) where
  buffer : List α
  state : σ
  /-- the payloads that were handled -/
  taken : List (List α)

section

variable (F : Format α) (handle : σ → List α → σ × Bool)

/-- The frame at the front is taken out and handled. -/
def Reader.take (frame : List α) (r : Reader σ α) : Reader σ α :=
  ⟨r.buffer.drop frame.length, (handle r.state frame).1, r.taken ++ [frame.drop F.header]⟩

/-- A round, for at most `fuel` frames; `handle` says whether it has thrown. -/
def drain : Nat → Reader σ α → Reader σ α
  | 0, r => r
  | fuel + 1, r =>
    match F.next r.buffer with
    | none => { r with buffer := F.leftover r.buffer }
    | some frame =>
      if (handle r.state frame).2 then r.take F handle frame else drain fuel (r.take F handle frame)

/-- A frame has at least one byte, so a buffer holds fewer frames than bytes. -/
def settle (r : Reader σ α) : Reader σ α := drain F handle (r.buffer.length + 1) r

def feed (r : Reader σ α) (chunk : List α) : Reader σ α :=
  settle F handle { r with buffer := r.buffer ++ chunk }

/-- The state after some frames. -/
def handled (st : σ) (frames : List (List α)) : σ :=
  frames.foldl (fun st frame => (handle st frame).1) st

/-- No frame but the last throws. -/
def Calm : σ → List (List α) → Prop
  | _, [] => True
  | st, frame :: frames =>
    frames = [] ∨ (handle st frame).2 = false ∧ Calm (handle st frame).1 frames

end

variable {F : Format α} {handle : σ → List α → σ × Bool} {r : Reader σ α} {frame : List α}
  {frames : List (List α)}

theorem handled_append (st : σ) (frames more : List (List α)) :
    handled handle st (frames ++ more) = handled handle (handled handle st frames) more :=
  List.foldl_append

/-- Which frames may not throw. -/
theorem calm_iff {st : σ} :
    Calm handle st frames ↔
    ∀ before frame after, frames = before ++ frame :: after → after ≠ [] →
      (handle (handled handle st before) frame).2 = false := by
  induction frames generalizing st with
  | nil =>
    refine ⟨fun _ before frame after h => ?_, fun _ => trivial⟩
    exact absurd h.symm (List.append_ne_nil_of_right_ne_nil _ (List.cons_ne_nil _ _))
  | cons first frames ih =>
    constructor
    · rintro (hlast | ⟨hquiet, hcalm⟩) before frame after hsplit hafter
      · rw [hlast] at hsplit
        rcases List.singleton_eq_append_iff.mp hsplit with ⟨-, hone⟩ | ⟨-, hnil⟩
        · exact absurd (List.cons.inj hone).2 hafter
        · cases hnil
      · cases before with
        | nil =>
          cases hsplit
          exact hquiet
        | cons b before =>
          obtain ⟨rfl, hrest⟩ := List.cons.inj hsplit
          exact ih.mp hcalm before frame after hrest hafter
    · intro h
      by_cases hlast : frames = []
      · exact .inl hlast
      · refine .inr ⟨h [] first frames rfl hlast, ih.mpr fun before frame after hsplit hafter => ?_⟩
        exact h (first :: before) frame after (congrArg (first :: ·) hsplit) hafter

theorem length_take_lt (handle : σ → List α → σ × Bool) (h : F.next r.buffer = some frame) :
    (r.take F handle frame).buffer.length < r.buffer.length := by
  obtain ⟨hwhole, hcut⟩ := Format.next_eq_some h
  have hheader := hwhole.header_le
  have hpos := F.header_pos
  have hlen := congrArg List.length hcut
  rw [List.length_append] at hlen
  unfold Reader.take
  dsimp only
  omega

/-- Fuel above the length of the buffer makes no difference. -/
theorem drain_fuel (F : Format α) (handle : σ → List α → σ × Bool) (n m : Nat) (r : Reader σ α)
    (hn : r.buffer.length < n) (hm : r.buffer.length < m) :
    drain F handle n r = drain F handle m r := by
  induction n generalizing m r with
  | zero => omega
  | succ n ih =>
    cases m with
    | zero => omega
    | succ m =>
      unfold drain
      cases hnext : F.next r.buffer with
      | none => rfl
      | some frame =>
        have hlt := length_take_lt handle hnext
        have hsame := ih m (r.take F handle frame) (by omega) (by omega)
        dsimp only
        rw [hsame]

theorem settle_none (h : F.next r.buffer = none) :
    settle F handle r = { r with buffer := F.leftover r.buffer } := by
  unfold settle drain
  rw [h]

theorem settle_some (h : F.next r.buffer = some frame) :
    settle F handle r =
      if (handle r.state frame).2 then r.take F handle frame
      else settle F handle (r.take F handle frame) := by
  have hlt := length_take_lt handle h
  have hfuel := drain_fuel F handle r.buffer.length ((r.take F handle frame).buffer.length + 1)
    (r.take F handle frame) hlt (Nat.lt_succ_self _)
  unfold settle
  rw [← hfuel]
  conv_lhs => unfold drain
  rw [h]

/-! ## What was handled before stays -/

theorem taken_settle (r : Reader σ α) : r.taken.length ≤ (settle F handle r).taken.length := by
  induction hn : r.buffer.length using Nat.strongRecOn generalizing r with
  | ind n ih =>
    cases hnext : F.next r.buffer with
    | none =>
      have hsame : (settle F handle r).taken = r.taken := by rw [settle_none hnext]
      exact Nat.le_of_eq (congrArg List.length hsame.symm)
    | some frame =>
      have hlt := length_take_lt handle hnext
      have htake : r.taken.length ≤ (r.take F handle frame).taken.length := by
        unfold Reader.take
        dsimp only
        rw [List.length_append]
        omega
      rw [settle_some hnext]
      split
      · exact htake
      · exact Nat.le_trans htake (ih _ (hn ▸ hlt) _ rfl)

theorem taken_feeds (chunks : List (List α)) (r : Reader σ α) :
    r.taken.length ≤ (chunks.foldl (feed F handle) r).taken.length := by
  induction chunks generalizing r with
  | nil => exact Nat.le_refl _
  | cons chunk chunks ih =>
    exact Nat.le_trans (taken_settle { r with buffer := r.buffer ++ chunk }) (ih _)

/-- A frame that stands at the front is handled in any case. -/
theorem taken_settle_lt (h : F.next r.buffer = some frame) :
    r.taken.length < (settle F handle r).taken.length := by
  have htake : r.taken.length < (r.take F handle frame).taken.length := by
    unfold Reader.take
    dsimp only
    rw [List.length_append]
    exact Nat.lt_succ_self _
  rw [settle_some h]
  split
  · exact htake
  · exact Nat.lt_of_lt_of_le htake (taken_settle _)

/-- Nothing is handled while no whole frame stands at the front. -/
theorem taken_feed_none (handle : σ → List α → σ × Bool) {chunk : List α} (hempty : r.buffer = [])
    (h : F.next chunk = none) :
    (feed F handle r chunk).taken = r.taken ∧
    (F.Oversized chunk → (feed F handle r chunk).buffer = []) := by
  have hbuffer : F.next ({ r with buffer := r.buffer ++ chunk } : Reader σ α).buffer = none := by
    rw [hempty]
    exact h
  unfold feed
  rw [settle_none hbuffer]
  refine ⟨rfl, fun hover => ?_⟩
  dsimp only
  rw [hempty]
  exact hover.leftover

/-! ## Any way to cut the stream -/

/-- Where a reader stands that has `rest` still to come of a stream of frames
and a tail: some frames are handled, and the others and the tail, or what is
left of it, are in the buffer and to come. -/
structure Reads (F : Format α) (handle : σ → List α → σ × Bool) (start : Reader σ α)
    (frames : List (List α)) (tail : List α) (r : Reader σ α) (rest : List α)
    (done todo : List (List α)) (lost : Nat) : Prop where
  split : frames = done ++ todo
  taken : r.taken = start.taken ++ done.map (List.drop F.header)
  state : r.state = handled handle start.state done
  calm : Calm handle r.state todo
  buffer : r.buffer ++ rest = todo.flatten ++ tail.drop lost
  lost : lost = 0 ∨ F.header ≤ lost ∧ todo = []
  drained : todo = [] ∨ F.next r.buffer = none

variable {start : Reader σ α} {tail rest : List α} {done todo : List (List α)} {lost : Nat}

/-- One round, of a buffer that was just filled. -/
theorem reads_settle (hwhole : ∀ frame ∈ frames, F.Whole frame)
    (htail : ∀ e, (e = 0 ∨ F.header ≤ e) → F.next (tail.drop e) = none)
    (hsplit : frames = done ++ todo)
    (htaken : r.taken = start.taken ++ done.map (List.drop F.header))
    (hstate : r.state = handled handle start.state done) (hcalm : Calm handle r.state todo)
    (hbuffer : r.buffer ++ rest = todo.flatten ++ tail.drop lost)
    (hlost : lost = 0 ∨ F.header ≤ lost ∧ todo = []) :
    ∃ done' todo' lost',
      Reads F handle start frames tail (settle F handle r) rest done' todo' lost' := by
  induction todo generalizing r done with
  | nil =>
    rw [List.flatten_nil, List.nil_append] at hbuffer
    have hnone : F.next r.buffer = none := by
      have htail := htail lost (hlost.imp_right And.left)
      rw [← hbuffer] at htail
      exact Format.next_prefix htail
    rw [settle_none hnone]
    by_cases hover : F.Oversized r.buffer
    · -- the tail loses what of it has arrived
      have hheader := hover.header
      refine ⟨done, [], lost + r.buffer.length, hsplit, htaken, hstate, hcalm,
        ?_, .inr ⟨by omega, rfl⟩, .inl rfl⟩
      have hdrop : (tail.drop lost).drop r.buffer.length = rest := by rw [← hbuffer, List.drop_left]
      dsimp only
      rw [hover.leftover, List.flatten_nil, ← List.drop_drop, hdrop]
    · rw [Format.leftover_of_not hover]
      exact ⟨done, [], lost, hsplit, htaken, hstate, hcalm, hbuffer, hlost, .inl rfl⟩
  | cons frame todo ih =>
    have hframe : F.Whole frame := hwhole frame (by rw [hsplit]; simp)
    have hzero : lost = 0 := hlost.resolve_right fun h => List.cons_ne_nil _ _ h.2
    rw [List.flatten_cons, List.append_assoc] at hbuffer
    cases hnext : F.next r.buffer with
    | none =>
      have hnot : ¬F.Oversized r.buffer := by
        intro hover
        have happ := hover.append rest
        rw [hbuffer] at happ
        exact hframe.not_oversized _ happ
      rw [settle_none hnext, Format.leftover_of_not hnot]
      refine ⟨done, frame :: todo, lost, hsplit, htaken, hstate, hcalm, ?_, .inl hzero, .inr hnext⟩
      rw [List.flatten_cons, List.append_assoc]
      exact hbuffer
    | some front =>
      -- the frame at the front of the buffer is the next one of the stream
      have hsame : front = frame := by
        have hlong := Format.next_append hnext rest
        rw [hbuffer, hframe.next] at hlong
        exact (Option.some.inj hlong).symm
      subst hsame
      obtain ⟨-, hcut⟩ := Format.next_eq_some hnext
      have hrest : (r.take F handle front).buffer ++ rest = todo.flatten ++ tail.drop lost := by
        rw [hcut, List.append_assoc] at hbuffer
        exact List.append_cancel_left hbuffer
      have hdone : (r.take F handle front).taken = start.taken ++
          (done ++ [front]).map (List.drop F.header) := by
        unfold Reader.take
        dsimp only
        rw [htaken, List.map_append, List.append_assoc]
        rfl
      have hnew : (r.take F handle front).state = handled handle start.state (done ++ [front]) := by
        rw [handled_append, ← hstate]
        rfl
      have hcons : frames = (done ++ [front]) ++ todo := by
        rw [hsplit, List.append_assoc]
        rfl
      rw [settle_some hnext]
      split
      · rename_i hthrew
        have hlast : todo = [] := by
          rcases hcalm with hlast | ⟨hquiet, -⟩
          · exact hlast
          · rw [hquiet] at hthrew
            cases hthrew
        subst hlast
        exact ⟨done ++ [front], [], lost, hcons, hdone, hnew, trivial, hrest, .inl hzero, .inl rfl⟩
      · have hcalm' : Calm handle (r.take F handle front).state todo := by
          rcases hcalm with hlast | ⟨-, hcalm⟩
          · rw [hlast]
            trivial
          · exact hcalm
        exact ih hcons hdone hnew hcalm' hrest (.inl hzero)

theorem reads_feeds (hwhole : ∀ frame ∈ frames, F.Whole frame)
    (htail : ∀ e, (e = 0 ∨ F.header ≤ e) → F.next (tail.drop e) = none) (chunks : List (List α))
    (h : Reads F handle start frames tail r (chunks.flatten ++ rest) done todo lost) :
    ∃ done' todo' lost',
      Reads F handle start frames tail (chunks.foldl (feed F handle) r) rest done' todo' lost' := by
  induction chunks generalizing r done todo lost with
  | nil => exact ⟨done, todo, lost, h⟩
  | cons chunk chunks ih =>
    have hbuffer : (r.buffer ++ chunk) ++ (chunks.flatten ++ rest) = todo.flatten ++
        tail.drop lost := by
      rw [← h.buffer, List.flatten_cons, List.append_assoc, List.append_assoc]
    obtain ⟨done', todo', lost', hnext⟩ :=
      reads_settle (r := { r with buffer := r.buffer ++ chunk }) hwhole htail h.split
      h.taken h.state h.calm hbuffer h.lost
    exact ih hnext

/-- **However the stream is cut**, its frames are delivered when no frame but
the last throws and no frame can be found in the tail. -/
theorem delivered_tail (start : Reader σ α) (hwhole : ∀ frame ∈ frames, F.Whole frame)
    (htail : ∀ e, (e = 0 ∨ F.header ≤ e) → F.next (tail.drop e) = none) (hempty : start.buffer = [])
    (hcalm : Calm handle start.state frames) {chunks : List (List α)}
    (hchunks : chunks.flatten = frames.flatten ++ tail) :
    (chunks.foldl (feed F handle) start).taken = start.taken ++ frames.map (List.drop F.header) ∧
    ∃ e, (chunks.foldl (feed F handle) start).buffer = tail.drop e := by
  have hstart : Reads F handle start frames tail start (chunks.flatten ++ []) [] frames 0 := by
    refine ⟨rfl, (List.append_nil _).symm, rfl, hcalm, ?_, .inl rfl, .inr ?_⟩
    · rw [hempty, hchunks, List.append_nil, List.nil_append, List.drop_zero]
    · rw [hempty]
      exact Format.next_nil
  obtain ⟨done, todo, lost, h⟩ := reads_feeds hwhole htail chunks hstart
  have hbuffer := h.buffer
  rw [List.append_nil] at hbuffer
  have htodo : todo = [] := by
    rcases h.drained with htodo | hnone
    · exact htodo
    · cases todo with
      | nil => rfl
      | cons frame todo =>
        have hframe : F.Whole frame := hwhole frame (by rw [h.split]; simp)
        rw [hbuffer, List.flatten_cons, List.append_assoc, hframe.next] at hnone
        cases hnone
  subst htodo
  have hsplit := h.split
  rw [List.append_nil] at hsplit
  exact ⟨hsplit ▸ h.taken, lost, hbuffer⟩

/-- **A stream of frames is delivered however it is cut**, and the buffer ends
empty. -/
theorem delivered_all (start : Reader σ α) (hwhole : ∀ frame ∈ frames, F.Whole frame)
    (hempty : start.buffer = []) (hcalm : Calm handle start.state frames) {chunks : List (List α)}
    (hchunks : chunks.flatten = frames.flatten) :
    (chunks.foldl (feed F handle) start).taken = start.taken ++ frames.map (List.drop F.header) ∧
    (chunks.foldl (feed F handle) start).buffer = [] := by
  have htail (e : Nat) (_ : e = 0 ∨ F.header ≤ e) : F.next (([] : List α).drop e) = none := by
    rw [List.drop_nil]
    exact Format.next_nil
  obtain ⟨htaken, e, hbuffer⟩ :=
    delivered_tail start hwhole htail hempty hcalm (hchunks.trans (List.append_nil _).symm)
  exact ⟨htaken, hbuffer.trans List.drop_nil⟩

/-! ## What one piece shows -/

/-- A stream in one piece delivers all its frames only when no frame but the
last throws. -/
theorem calm_of_all (tail : List α) (hwhole : ∀ frame ∈ frames, F.Whole frame)
    (hbuffer : r.buffer = frames.flatten ++ tail)
    (hall : r.taken.length + frames.length ≤ (settle F handle r).taken.length) :
    Calm handle r.state frames := by
  induction frames generalizing r with
  | nil => trivial
  | cons frame frames ih =>
    have hframe := hwhole frame List.mem_cons_self
    rw [List.flatten_cons, List.append_assoc] at hbuffer
    have hnext : F.next r.buffer = some frame := by
      rw [hbuffer]
      exact hframe.next _
    have hlen : (r.take F handle frame).taken.length = r.taken.length + 1 := by
      unfold Reader.take
      dsimp only
      rw [List.length_append]
      rfl
    rw [settle_some hnext, List.length_cons] at hall
    split at hall
    · refine .inl (List.length_eq_zero_iff.mp ?_)
      omega
    · rename_i hquiet
      refine .inr ⟨Bool.not_eq_true _ ▸ hquiet, ?_⟩
      refine ih (r := r.take F handle frame) (fun f hf => hwhole f (List.mem_cons_of_mem _ hf))
        ?_ ?_
      · unfold Reader.take
        dsimp only
        rw [hbuffer, List.drop_left]
      · omega

/-- Frame by frame, every frame is delivered, whatever throws. -/
theorem delivered_each (handle : σ → List α → σ × Bool) (hwhole : ∀ frame ∈ frames, F.Whole frame)
    (hempty : r.buffer = []) :
    (frames.foldl (feed F handle) r).taken = r.taken ++ frames.map (List.drop F.header) ∧
    (frames.foldl (feed F handle) r).buffer = [] := by
  induction frames generalizing r with
  | nil => exact ⟨(List.append_nil _).symm, hempty⟩
  | cons frame frames ih =>
    have hframe := hwhole frame List.mem_cons_self
    have hcalm : Calm handle r.state [frame] := .inl rfl
    have hchunk : [frame].flatten = [frame].flatten := rfl
    have hone := delivered_all r (fun f hf => List.mem_singleton.mp hf ▸ hframe) hempty hcalm hchunk
    rw [List.foldl_cons, List.foldl_nil] at hone
    have hrest := ih (fun f hf => hwhole f (List.mem_cons_of_mem _ hf)) hone.2
    rw [List.foldl_cons, List.map_cons]
    refine ⟨?_, hrest.2⟩
    rw [hrest.1, hone.1, List.append_assoc]
    rfl

end RezSdk.Framing
