import RezSdk.L3Service.Counting
import RezSdk.L4Runs.DecryptCalls
import RezSdk.L4Runs.Ratchet

/-!
# A failed decrypt and the message key

A decrypt that throws should leave the ratchet as it was, so that the packet
can be opened when it is delivered again; the exceptions are a session write
that was reported failed and a concurrent call that wrote over the session.
The code adds a third one: after the advanced ratchet is stored, the reads
that only decorate the result (the snapshot of the link, the read-back and
the re-read of the recovery) can still fail, and the call throws
(`snapshot_read_loses_key`). When no decrypt ends on such a read, nothing is
lost, in any run of any calls (`decrypt_keeps_key`).
-/
namespace RezSdk.L4.DecryptLoss

open RezSdk.L1 RezSdk.L2 RezSdk.L3 RezSdk.L4.Ratchet

variable {Snap : Type}

/-! ## The property -/

def isDecrypt : Call → Bool
  | .decrypt .. => true
  | .decryptAny .. => true
  | _ => false

/-- A session write of call `t` was reported failed. -/
def WriteFailed (log : List (Ev Snap)) (t : Nat) : Prop :=
  ∃ e ∈ log, e.tid = t ∧ failedWrite e.exch = true

/-- The event replaces or removes the session record. -/
def overwrites (cell : Id × Id) (e : Ev Snap) : Bool :=
  e.fate.lands && match e.op with
    | .set (.session o i) _ => (o, i) = cell
    | .delete (.session o i) => (o, i) = cell
    | _ => false

/-- Another call than `t` has overwritten the session since `s₀`. -/
def Overwritten (s₀ s : State Snap) (t : Nat) (cell : Id × Id) : Prop :=
  ∃ newer e older, s.log = newer ++ e :: (older ++ s₀.log) ∧ e.tid ≠ t ∧ overwrites cell e = true

/-- A decrypt that started after `s₀` and has thrown by `s` left every stored
ratchet as it was in `s₀`, or a session write of it was reported failed, or
another call overwrote the session. -/
def NothingLost (s₀ s : State Snap) : Prop :=
  ∀ t c err, s₀.threads.length ≤ t → outcome s t = some (c, .error err) → isDecrypt c = true →
    ∀ cell, stored s.mem.kv cell = stored s₀.mem.kv cell ∨ WriteFailed s.log t ∨
    Overwritten s₀ s t cell

/-! ## The runs -/

/-- Any calls over any store, with any faults. -/
def anyCalls : Rules Snap where
  init _ := True
  may _ _ := True
  ok _ _ := True

def sessionSet : Proc.Exch (sdk Snap) → Bool
  | ⟨.set (.session ..) _, _⟩ => true
  | _ => false

/-- A read that fails, of a decrypt that has written a session, and on which
the decrypt throws. -/
def EndsOnRead (s : State Snap) (e : Ev Snap) : Prop :=
  failedRead e.exch = true ∧ (∃ e' ∈ s.log, e'.tid = e.tid ∧ sessionSet e'.exch = true) ∧
    ∃ c next err, s.threads[e.tid]? = some ⟨c, .ask e.op next⟩ ∧ isDecrypt c = true ∧
      next e.ans = .ret (.error err)

/-- The same, but no decrypt ends on a failed read once it has written. -/
def readsHold : Rules Snap where
  init _ := True
  may _ _ := True
  ok s e := ¬ EndsOnRead s e

/-! ## The invariant -/

variable [DecidableEq Snap]

def start (c : Call) : Mark Snap := if isDecrypt c then .clean else .unwatched

def Post (_ : Call) (m : Mark Snap) : Except Err Reply → Prop
  | .ok _ => True
  | .error _ => Excused m

def mark (t : Nat) (log : List (Ev Snap)) : Mark Snap := Pool.mon monitor .clean t log

/-- What the mark of a call says about the stored ratchet of `cell`. -/
def Holds (kv₀ kv : Store Snap) (cell : Id × Id) : Mark Snap → Prop
  | .unwatched => False
  | .clean => stored kv cell = stored kv₀ cell
  | .wrote c snap _ => stored kv cell = if cell = c then some snap else stored kv₀ cell
  | .clashed c => cell ≠ c ∧ stored kv cell = stored kv₀ cell
  | .failed => True

/-- Independent of where the observation starts. -/
structure Inv (s : State Snap) : Prop where
  conforms : System.Conforms monitor (fun _ => True) start Post s
  unstuck : ∀ t c err cell snap, outcome s t = some (c, .error err) → isDecrypt c = true →
    mark t s.log ≠ .wrote cell snap true

/-- Since `s₀`. -/
structure Since (s₀ s : State Snap) : Prop where
  grown : ∃ seg, s.log = seg ++ s₀.log
  kept : ∀ t, s₀.threads.length ≤ t → (∀ th, s.threads[t]? = some th → isDecrypt th.call = true) →
    ∀ cell, Overwritten s₀ s t cell ∨ Holds s₀.mem.kv s.mem.kv cell (mark t s.log)

theorem obeys_unwatched {α : Type} {L : Proc.Exch (sdk Snap) → Prop} {Q : Mark Snap → α → Prop}
    {p : Proc (sdk Snap) α} (hq : ∀ x, Q .unwatched x) : Obeys monitor L Q .unwatched p := by
  refine obeys_still ?_ hq
  induction p with
  | ret x => trivial
  | ask o next ih => exact ⟨⟨by cases o <;> trivial, fun _ => rfl⟩, ih⟩

theorem obeys_program (svc : Service Snap) (c : Call) :
    Obeys monitor (fun _ => True) (Post c) (start c) (program svc c) := by
  have hother : isDecrypt c = false →
      Obeys monitor (fun _ => True) (Post c) (start c) (program svc c) := by
    intro h
    simp only [start, h, Bool.false_eq_true, if_false]
    exact obeys_unwatched fun x => by cases x <;> trivial
  cases c with
  | decrypt owner peer b =>
    exact obeys_js_bind ((obeys_decrypt owner peer b).mono fun m x hx => by cases x <;> exact hx)
  | decryptAny owner b =>
    exact obeys_js_bind ((obeys_decryptAny owner b).mono fun m x hx => by cases x <;> exact hx)
  | _ => exact hother rfl

/-! ## One event -/

theorem mark_start {c : Call} (h : isDecrypt c = true) {t : Nat} {log : List (Ev Snap)} :
    Pool.mon monitor (start c) t log = mark t log := by
  simp only [mark, start, h, if_true]

theorem wrote_of_mark {t : Nat} {log : List (Ev Snap)} {cell : Id × Id} {snap : Snap} {b : Bool}
    (h : mark t log = .wrote cell snap b) : ∃ e ∈ log, e.tid = t ∧ sessionSet e.exch = true := by
  refine Pool.mon_event (P := fun m => ¬ Unwritten m) (R := fun x => sessionSet x = true)
    (fun m x hm => ?_) (fun h => h trivial) (M := monitor) (a := .clean)
    (by rw [mark] at h; rw [h]; exact id)
  cases m with
  | wrote => exact .inl id
  | clean =>
    simp only [monitor, Mark.next] at hm
    split at hm
    · exact absurd trivial hm
    · rcases firstWrite_cases x with h' | ⟨o, i, r, u, rfl, -⟩
      · rw [h'] at hm; exact absurd trivial hm
      · exact .inr rfl
  | clashed c =>
    simp only [monitor, Mark.next] at hm
    split at hm <;> exact absurd trivial hm
  | _ => exact absurd trivial hm

theorem failed_of_mark {t : Nat} {log : List (Ev Snap)} (h : mark t log = .failed) :
    WriteFailed log t :=
  Pool.mon_event (M := monitor) (a := .clean) (P := fun m => m = .failed) (fun _ _ => mark_failed)
    (fun h => by cases h) h

omit [DecidableEq Snap] in
theorem overwritten_cons {s₀ s s' : State Snap} {e : Ev Snap} {t : Nat} {cell : Id × Id}
    (hl : s'.log = e :: s.log) (h : Overwritten s₀ s t cell) : Overwritten s₀ s' t cell := by
  obtain ⟨newer, e', older, hlog, h⟩ := h
  exact ⟨e :: newer, e', older, by rw [hl, hlog]; rfl, h⟩

omit [DecidableEq Snap] in
/-- An event that does not overwrite the record. -/
theorem stored_of_not {kv : Store Snap} {e : Ev Snap} {cell : Id × Id}
    (h : overwrites cell e = false) : stored (effect kv e.op e.fate) cell = stored kv cell := by
  obtain ⟨t, o, r, f⟩ := e
  cases o with
  | set k v =>
    simp only [effect]
    split
    · rename_i hl
      refine stored_insert_ne fun hk => ?_
      subst hk
      simp [overwrites, hl] at h
    · rfl
  | delete k =>
    simp only [effect]
    split
    · rename_i hl
      refine stored_erase_ne fun hk => ?_
      subst hk
      simp [overwrites, hl] at h
    · rfl
  | _ => rfl

/-- The read-back finds what is stored. -/
theorem mismatch_stored {svc : Service Snap} {s s' : State Snap} {e : Ev Snap} {c : Call}
    {next : (sdk Snap).Ans e.op → Proc (sdk Snap) (Except Err Reply)} {cell : Id × Id} {snap : Snap}
    (hf : Pool.Fires (system svc) s e c next s') (h : mismatch cell snap e.exch = true) :
    stored s.mem.kv cell ≠ some snap := by
  obtain ⟨t, o, a, f⟩ := e
  simp only [Event.exch, mismatch] at h
  split at h
  · rename_i o' i v heq
    simp only [Proc.Exch.mk.injEq] at heq
    obtain ⟨rfl, heq⟩ := heq
    cases heq
    simp only [Bool.and_eq_true, decide_eq_true_eq, Bool.not_eq_true', decide_eq_false_iff_not] at h
    obtain ⟨rfl, hne⟩ := h
    rw [stored, act_get_ok hf.act]
    exact hne
  · cases h

/-- A decrypt's own write of the record. -/
theorem holds_write {kv₀ kv : Store Snap} {m : Mark Snap} {cell : Id × Id} {r : SessionRecord Snap}
    (hmay : m.may (.set (.session cell.1 cell.2) r)) (h : Holds kv₀ kv cell m) :
    Holds kv₀ (kv.insert (.session cell.1 cell.2) r) cell
      (m.next ⟨.set (.session cell.1 cell.2) r, .ok ()⟩) := by
  cases m with
  | clean =>
    show stored _ _ = if cell = (cell.1, cell.2) then _ else _
    rw [if_pos rfl]
    exact stored_insert kv cell.1 cell.2 r
  | wrote c snap b =>
    obtain ⟨rfl, rfl⟩ := hmay
    show stored _ _ = if cell = (cell.1, cell.2) then _ else _
    rw [if_pos rfl]
    exact stored_insert kv cell.1 cell.2 r
  | clashed c => exact absurd hmay h.1
  | _ => exact h

/-- An own event that leaves the record alone. -/
theorem holds_still {svc : Service Snap} {kv₀ : Store Snap} {s s' : State Snap} {e : Ev Snap}
    {c : Call} {next : (sdk Snap).Ans e.op → Proc (sdk Snap) (Except Err Reply)} {m : Mark Snap}
    {cell : Id × Id} (hf : Pool.Fires (system svc) s e c next s') (hno : overwrites cell e = false)
    (h : Holds kv₀ s.mem.kv cell m) : Holds kv₀ s'.mem.kv cell (m.next e.exch) := by
  have hst : stored s'.mem.kv cell = stored s.mem.kv cell := kv_fires hf ▸ stored_of_not hno
  cases hfw : failedWrite e.exch with
  | true =>
    cases m with
    | unwatched => exact h
    | _ => simp only [Mark.next, hfw, if_true]; trivial
  | false =>
    cases m with
    | clean =>
      simp only [Mark.next, hfw, Bool.false_eq_true, if_false]
      rcases firstWrite_cases e.exch with h' | ⟨o, i, r, u, hx, h'⟩
      · rw [h']; exact hst.trans h
      · rw [h']
        obtain ⟨t, op, a, f⟩ := e
        simp only [Event.exch, Proc.Exch.mk.injEq] at hx
        obtain ⟨rfl, hx⟩ := hx
        cases hx
        have hl : f.lands = true := act_set_ok hf.act
        have hne : cell ≠ (o, i) := by
          rintro rfl
          simp [overwrites, hl] at hno
        simp only [Holds, if_neg hne]
        exact hst.trans h
    | wrote c' snap b =>
      simp only [Mark.next, hfw, Bool.false_eq_true, if_false]
      split
      · rename_i hmis
        have hne : cell ≠ c' := by
          rintro rfl
          simp only [Holds, if_true] at h
          exact mismatch_stored hf hmis h
        simp only [Holds, if_neg hne] at h
        exact ⟨hne, hst.trans h⟩
      · exact hst.trans h
    | clashed c' =>
      simp only [Mark.next, hfw, Bool.false_eq_true, if_false]
      exact ⟨h.1, hst.trans h.2⟩
    | _ => exact h

/-- A decrypt's own event. -/
theorem holds_own {svc : Service Snap} {kv₀ : Store Snap} {s s' : State Snap} {e : Ev Snap}
    {c : Call} {next : (sdk Snap).Ans e.op → Proc (sdk Snap) (Except Err Reply)} {m : Mark Snap}
    {cell : Id × Id} (hf : Pool.Fires (system svc) s e c next s') (hmay : m.may e.op)
    (h : Holds kv₀ s.mem.kv cell m) : Holds kv₀ s'.mem.kv cell (m.next e.exch) := by
  cases hov : overwrites cell e with
  | false => exact holds_still hf hov h
  | true =>
    have hkv := kv_fires hf
    obtain ⟨t, o, a, f⟩ := e
    simp only [overwrites, Bool.and_eq_true] at hov
    obtain ⟨hl, hov⟩ := hov
    cases o with
    | set k v =>
      cases k with
      | session ow i =>
        cases of_decide_eq_true hov
        simp only [effect, hl, if_true] at hkv
        rw [hkv]
        cases a with
        | ok u => exact holds_write hmay h
        | error err =>
          cases m with
          | unwatched => exact h
          | _ => trivial
      | _ => cases hov
    | delete k =>
      cases k with
      | session ow i =>
        cases m with
        | clean | wrote _ _ _ | clashed _ => exact hmay.elim
        | _ => exact h
      | _ => cases hov
    | _ => cases hov

/-! ## Whole runs -/

variable {svc : Service Snap}

theorem mark_fresh {s : State Snap} (h : Inv s) {t : Nat} (ht : s.threads.length ≤ t) :
    mark t s.log = .clean :=
  Pool.mon_start fun e he => Nat.ne_of_lt (Nat.lt_of_lt_of_le (h.conforms.tids e he) ht)

theorem Inv.spawn {s : State Snap} (h : Inv s) (c : Call) : Inv (s.spawn (system svc) c) where
  conforms := System.conforms_spawn h.conforms (obeys_program svc c)
  unstuck t c' err cell snap hout hdec := by
    rcases Nat.lt_or_ge t s.threads.length with hlt | hge
    · refine h.unstuck t c' err cell snap ?_ hdec
      rw [outcome_some] at hout ⊢
      rwa [Pool.spawn, List.getElem?_append_left hlt] at hout
    · show mark t s.log ≠ _
      rw [mark_fresh h hge]
      exact fun h => by cases h

theorem Inv.fires {s s' : State Snap} {e : Ev Snap} {c : Call}
    {next : (sdk Snap).Ans e.op → Proc (sdk Snap) (Except Err Reply)} (h : Inv s)
    (hf : Pool.Fires (system svc) s e c next s') (hok : ¬ EndsOnRead s e) : Inv s' where
  conforms := System.conforms_fires h.conforms hf trivial
  unstuck t c' err cell snap hout hdec hmark := by
    rw [outcome_some, hf.threads] at hout
    rw [hf.log] at hmark
    by_cases ht : e.tid = t
    · subst ht
      obtain ⟨hlt, -⟩ := List.getElem?_eq_some_iff.mp hf.thread
      rw [List.getElem?_set_self hlt, Option.some.injEq, Thread.mk.injEq] at hout
      obtain ⟨rfl, hret⟩ := hout
      rw [mark, Pool.mon_self] at hmark
      obtain ⟨hread, b, hw⟩ := mark_stuck hmark
      exact hok ⟨hread, wrote_of_mark hw, c, next, err, hf.thread, hdec, hret⟩
    · rw [List.getElem?_set_ne ht] at hout
      rw [mark, Pool.mon_other ht] at hmark
      exact h.unstuck t c' err cell snap (outcome_some.mpr hout) hdec hmark

theorem Since.spawn {s₀ s : State Snap} (h : Since s₀ s) (c : Call) :
    Since s₀ (s.spawn (system svc) c) where
  grown := h.grown
  kept t ht hdec := h.kept t ht fun th hth => hdec th (Pool.spawn_thread hth)

theorem Since.fires {s₀ s s' : State Snap} {e : Ev Snap} {c : Call}
    {next : (sdk Snap).Ans e.op → Proc (sdk Snap) (Except Err Reply)} (h : Since s₀ s) (hi : Inv s)
    (hf : Pool.Fires (system svc) s e c next s') : Since s₀ s' where
  grown := by
    obtain ⟨seg, hseg⟩ := h.grown
    exact ⟨e :: seg, by rw [hf.log, hseg]; rfl⟩
  kept t ht hdec cell := by
    have hdec' : ∀ th, s.threads[t]? = some th → isDecrypt th.call = true := by
      intro th hth
      obtain ⟨p, hp⟩ := hf.call hth
      exact hdec ⟨th.call, p⟩ hp
    rcases h.kept t ht hdec' cell with hov | hh
    · exact .inl (overwritten_cons hf.log hov)
    rw [hf.log]
    by_cases heq : e.tid = t
    · subst heq
      refine .inr ?_
      have hmay := hi.conforms.may hf
      rw [mark_start (hdec' _ hf.thread)] at hmay
      rw [mark, Pool.mon_self]
      exact holds_own hf hmay hh
    · cases hov : overwrites cell e with
      | true =>
        obtain ⟨seg, hseg⟩ := h.grown
        exact .inl ⟨[], e, seg, by rw [hf.log, hseg]; rfl, heq, hov⟩
      | false =>
        refine .inr ?_
        have hst : stored s'.mem.kv cell = stored s.mem.kv cell := kv_fires hf ▸ stored_of_not hov
        rw [mark, Pool.mon_other heq]
        revert hh
        unfold Holds mark
        split
        · exact id
        · exact hst.trans
        · exact hst.trans
        · exact fun hh => ⟨hh.1, hst.trans hh.2⟩
        · exact id

theorem since_refl {s₀ : State Snap} (h : Inv s₀) : Since s₀ s₀ where
  grown := ⟨[], rfl⟩
  kept t ht _ cell := .inr (by rw [mark_fresh h ht]; rfl)

theorem inv_inductive (svc : Service Snap) : ((system svc).lts readsHold).Inductive Inv :=
  System.inductive_of
    (fun m _ => ⟨System.conforms_init m, fun t c err cell snap h => by simp [outcome] at h⟩)
    (fun _ c h _ => h.spawn c)
    (fun _ _ _ _ _ h hf hok => h.fires hf hok)

/-- **A failed decrypt keeps the key**, in every run in which no decrypt ends
on a failed read. -/
theorem decrypt_keeps_key (svc : Service Snap) (s₀ s : State Snap) (ls : List (Label Fate Call))
    (hr : ((system svc).lts readsHold).Reachable s₀)
    (hrun : ((system svc).lts readsHold).Run s₀ ls s) : NothingLost s₀ s := by
  have h₀ := (inv_inductive svc).reachable s₀ hr
  obtain ⟨hi, hsince⟩ := hrun.keeps (J := fun s => Inv s ∧ Since s₀ s)
    (System.keeps_of (fun s c h _ => ⟨h.1.spawn c, h.2.spawn c⟩)
      fun s e c k s' h hf hok => ⟨h.1.fires hf hok, h.2.fires h.1 hf⟩) ⟨h₀, since_refl h₀⟩
  intro t c err ht hout hdec cell
  have hth := outcome_some.mp hout
  have hexc : Excused (mark t s.log) := by
    have := hi.conforms.result hth
    rwa [mark_start hdec] at this
  have hunstuck := hi.unstuck t c err
  have hkept := hsince.kept t ht (fun th h => by cases hth.symm.trans h; exact hdec) cell
  cases hm : mark t s.log with
  | unwatched =>
    rw [hm] at hkept
    exact .inr (.inr (hkept.resolve_right id))
  | clean =>
    rw [hm] at hkept
    exact hkept.symm.imp id .inr
  | wrote c' snap b =>
    rw [hm] at hexc
    cases hexc
    exact absurd hm (hunstuck c' snap hout hdec)
  | clashed c' =>
    rw [hm] at hkept
    exact hkept.symm.imp And.right .inr
  | failed => exact .inr (.inl (failed_of_mark hm))

/-! ## Concrete runs -/

def anyJudge : System.Judge (anyCalls : Rules Snap) where
  may _ _ := true
  ok _ _ := true
  may_iff _ _ _ := trivial
  ok_iff _ _ _ := trivial

/-- The event is not a failed read. -/
def holdsJudge : System.Judge (readsHold : Rules Snap) where
  may _ _ := true
  ok _ e := !failedRead e.exch
  may_iff _ _ _ := trivial
  ok_iff s e h := fun hend => by rw [hend.1] at h; cases h

/-- Call 0 is a decrypt that has thrown, and the ratchet of `cell` is now at
`now`. -/
def threw (cell : Id × Id) (now : Nat) (s : State Nat) : Bool :=
  (match outcome s 0 with
    | some (c, .error _) => isDecrypt c
    | _ => false) && decide (stored s.mem.kv cell = some now)

/-- Call 0 has made no failing session write, and nobody else has done
anything. -/
def alone (s : State Nat) : Bool := s.log.all fun e => e.tid = 0 && !failedWrite e.exch

theorem not_nothingLost {s₀ s : State Nat} {cell : Id × Id} {now : Nat}
    (h : threw cell now s = true) (ha : alone s = true) (h₀ : s₀.threads = [])
    (hne : stored s₀.mem.kv cell ≠ some now) : ¬ NothingLost s₀ s := by
  intro hno
  simp only [threw, Bool.and_eq_true, decide_eq_true_eq] at h
  simp only [alone, Bool.and_eq_true, List.all_eq_true, decide_eq_true_eq] at ha
  obtain ⟨hout, hst⟩ := h
  split at hout
  · rename_i c err hc
    rcases hno 0 c err (by rw [h₀]; exact Nat.le_refl 0) hc hout cell with h | ⟨e, he, -, hfw⟩ | hov
    · exact hne (h.symm.trans hst)
    · have := (ha e he).2
      rw [hfw] at this
      cases this
    · obtain ⟨newer, e, older, heq, hne, -⟩ := hov
      exact hne (ha e (by rw [heq]; simp)).1
  · cases hout

/-- An established link whose session is at snapshot 1. -/
def established : State Nat :=
  ⟨.ofStore (Counting.linked .sessionEstablished .active) [], [], []⟩

/-- Loads the session, opens packet `[1]`, and comes to the put. -/
def upToPut : List (Label Fate Call) :=
  [.call (.decrypt Counting.a Counting.b [1]), .run 0 .ok, .run 0 .ok, .run 0 .ok, .run 0 .ok,
    .run 0 (.rand 0), .run 0 .ok, .run 0 (.time 5), .run 0 .ok]

/-- The put of the advanced session returns, and the first read of the link's
snapshot fails: the decrypt throws, and the ratchet is at snapshot 2. -/
theorem snapshot_read_loses_key :
    ∃ s₀ s ls, ((system Counting.svc).lts anyCalls).Reachable s₀ ∧
      ((system Counting.svc).lts anyCalls).Run s₀ ls s ∧ ¬ NothingLost s₀ s := by
  obtain ⟨s, hrun, hs⟩ := System.run_of_exec (S := system Counting.svc) anyJudge established
    (upToPut ++ [.run 0 .ok, .run 0 .ok, .run 0 (.fail Counting.fault)])
    (P := fun s => threw (Counting.a, Counting.d) 2 s && alone s) (by decide)
  rw [Bool.and_eq_true] at hs
  exact ⟨established, s, _, ⟨established, [], ⟨trivial, rfl, rfl⟩, .nil _⟩, hrun,
    not_nothingLost hs.1 hs.2 rfl (by decide)⟩

/-- The put does not land: the decrypt throws, and the ratchet is still at
snapshot 1. -/
theorem decrypt_keeps_key_put_failed :
    ∃ s ls, ((system Counting.svc).lts readsHold).Run established ls s ∧
      threw (Counting.a, Counting.d) 1 s = true ∧ NothingLost established s := by
  obtain ⟨s, hrun, hs⟩ := System.run_of_exec (S := system Counting.svc) holdsJudge established
    (upToPut ++ [.run 0 (.fail Counting.fault)]) (P := threw (Counting.a, Counting.d) 1) (by decide)
  exact ⟨s, _, hrun, hs, decrypt_keeps_key Counting.svc established s _
    ⟨established, [], ⟨trivial, rfl, rfl⟩, .nil _⟩ hrun⟩

end RezSdk.L4.DecryptLoss
