import RezSdk.L3Service.Counting

/-!
# Decrypt-commit durability

`#commitSessionAfterDecrypt` may return the plaintext only when the ratchet
advance is durable. The traces of the commit are taken with arbitrary
answers: every pattern of failing and landing writes, failing reads and
concurrent writers is some trace.

* `commit_durable`: a commit that returns has made a put of exactly the
  advanced snapshot that returned; and if it returned through the recovery,
  a read-back after such a put found a stored ratchet equal to it.
-/
namespace RezSdk.L4.CommitDurability

open RezSdk.L1 RezSdk.L2 RezSdk.L3 Proc

variable {Snap : Type} {svc : Service Snap} {a : CommitArgs Snap} {s : Snap}
  {τ : List (Exch (sdk Snap))}

/-! ## Traces of tracked steps -/

theorem trace_track_ok {π α : Type} {p : π} {x : Sdk Snap α} {v : α} :
    Trace (track p x) τ (.ok v) ↔ Trace x τ (.ok v) := by
  refine trace_bind.trans ⟨?_, fun h => ⟨τ, [], .ok v, (List.append_nil τ).symm, h, .ret _⟩⟩
  rintro ⟨τ₁, τ₂, e | w, rfl, h₁, h₂⟩ <;> obtain ⟨rfl, h⟩ := trace_ret.mp h₂ <;> cases h
  rwa [List.append_nil]

theorem trace_track_error {π α : Type} {p q : π} {x : Sdk Snap α} {e : Err} :
    Trace (track p x) τ (.error (q, e)) ↔ q = p ∧ Trace x τ (.error e) := by
  refine trace_bind.trans ⟨?_, ?_⟩
  · rintro ⟨τ₁, τ₂, e | w, rfl, h₁, h₂⟩ <;> obtain ⟨rfl, h⟩ := trace_ret.mp h₂ <;> cases h
    exact ⟨rfl, by rwa [List.append_nil]⟩
  · rintro ⟨rfl, h⟩
    exact ⟨τ, [], .error e, (List.append_nil τ).symm, h, .ret _⟩

/-! ## What the trace must show -/

/-- A put of a record with snapshot `s` returned within the trace. -/
def PutReturned (s : Snap) (τ : List (Exch (sdk Snap))) : Prop :=
  ∃ before put after input stored, τ = before ++ put ++ after ∧
    Trace (Sessions.put input) put (.ok stored) ∧ input.ratchetSnapshot = s

/-- After such a put, the session record was read back with snapshot `s`. -/
def ReadBack (owner : Id) (s : Snap) (τ : List (Exch (sdk Snap))) : Prop :=
  ∃ upTo after sid record, τ = upTo ++ ⟨.get (.session owner sid), .ok (some record)⟩ :: after ∧
    record.ratchetSnapshot = s ∧ ∃ before put between input stored,
      upTo = before ++ put ++ between ∧ Trace (Sessions.put input) put (.ok stored) ∧
      input.ratchetSnapshot = s ∧ input.sessionId = sid

theorem ReadBack.append {owner : Id} (h : ReadBack owner s τ) (τ' : List (Exch (sdk Snap))) :
    ReadBack owner s (τ ++ τ') := by
  obtain ⟨upTo, after, sid, record, rfl, hs, hput⟩ := h
  exact ⟨upTo, after ++ τ', sid, record, by simp only [List.append_assoc, List.cons_append],
    hs, hput⟩

theorem ReadBack.putReturned {owner : Id} (h : ReadBack owner s τ) : PutReturned s τ := by
  obtain ⟨upTo, after, sid, record, rfl, -, before, put, between, input, stored, rfl, ht, hs, -⟩ :=
    h
  refine ⟨before, put, between ++ ⟨.get (.session owner sid), .ok (some record)⟩ :: after, input,
    stored, ?_, ht, hs⟩
  simp only [List.append_assoc]

/-- The put of `input` returned within the trace. -/
def PutOf (input : SessionRecord Snap) (τ : List (Exch (sdk Snap))) : Prop :=
  ∃ before put after stored, τ = before ++ put ++ after ∧
  Trace (Sessions.put input) put (.ok stored)

/-- What the progress of a failed commit says about its trace: the put it
retains carries the snapshot, and it is marked persisted only if it
returned. -/
structure Tells (s : Snap) (τ : List (Exch (sdk Snap))) (p : Progress Snap) : Prop where
  snapshot : ∀ input, p.sessionPutInput = some input → input.ratchetSnapshot = s
  persisted : p.sessionPersisted = true → ∃ input, p.sessionPutInput = some input ∧ PutOf input τ

theorem tells_start : Tells s τ (.start : Progress Snap) :=
  ⟨fun _ h => (by cases h), fun h => (by cases h)⟩

/-! ## The commit -/

theorem commitLink_error {now : Nat} {stored : Option (SessionRecord Snap)} {p q : Progress Snap}
    {e : Err} (h : Trace (commitLink svc a now stored p) τ (.error (q, e))) :
    q.sessionPersisted = p.sessionPersisted ∧ q.sessionPutInput = p.sessionPutInput := by
  simp only [commitLink, Js.trace_bind_error, trace_track_error] at h
  obtain ⟨rfl, -⟩ | ⟨_, _, _, _, _, h⟩ := h
  · exact ⟨rfl, rfl⟩
  obtain ⟨rfl, -⟩ | ⟨_, _, _, _, _, h⟩ := h
  · exact ⟨rfl, rfl⟩
  obtain ⟨rfl, -⟩ | ⟨_, _, _, _, _, h⟩ := h
  · exact ⟨rfl, rfl⟩
  obtain ⟨rfl, -⟩ | ⟨_, _, _, _, _, h⟩ := h
  · exact ⟨rfl, rfl⟩
  obtain ⟨rfl, -⟩ | ⟨_, _, _, _, _, h⟩ := h
  · exact ⟨rfl, rfl⟩
  obtain ⟨rfl, -⟩ | ⟨_, _, _, _, _, h⟩ := h
  · exact ⟨rfl, rfl⟩
  cases h

theorem putInput_snapshot (sid : Id) (now : Nat) : (a.putInput s sid now).ratchetSnapshot = s := rfl

theorem commitSession_ok {r : CommitResult Snap} (hs : a.snapshot = some s)
    (h : Trace (commitSession svc a) τ (.ok r)) : PutReturned s τ := by
  simp only [commitSession, hs, Js.trace_bind_ok, trace_track_ok] at h
  obtain ⟨τ₁, τ₂, c, rfl, _, τ₃, τ₄, sid, rfl, _, τ₅, τ₆, stored, rfl, hput, _⟩ := h
  exact ⟨τ₁ ++ τ₃, τ₅, τ₆, _, stored, by simp only [List.append_assoc], hput,
    putInput_snapshot sid _⟩

theorem commitSession_error {p : Progress Snap} {e : Err} (hs : a.snapshot = some s)
    (h : Trace (commitSession svc a) τ (.error (p, e))) : Tells s τ p := by
  simp only [commitSession, hs, Js.trace_bind_error, trace_track_ok, trace_track_error] at h
  obtain ⟨rfl, -⟩ | ⟨τ₁, τ₂, c, rfl, -, h⟩ := h
  · exact tells_start
  obtain ⟨rfl, -⟩ | ⟨τ₃, τ₄, sid, rfl, -, h⟩ := h
  · exact tells_start
  obtain ⟨rfl, -⟩ | ⟨τ₅, τ₆, stored, rfl, hput, h⟩ := h
  · -- the put itself failed: retained, not marked persisted
    refine ⟨fun input hi => ?_, fun hp => by cases hp⟩
    cases hi; exact putInput_snapshot sid _
  · obtain ⟨hp, hi⟩ := commitLink_error h
    refine ⟨fun input h' => ?_, fun _ => ⟨_, hi, τ₁ ++ τ₃, τ₅, τ₆, stored, ?_, hput⟩⟩
    · rw [hi] at h'; cases h'; exact putInput_snapshot sid _
    · simp only [List.append_assoc]

/-! ## The recovery -/

theorem rewrite_true {input : SessionRecord Snap} :
    ∀ {n : Nat} {τ : List (Exch (sdk Snap))}, Trace (rewrite input n) τ (.ok true) → PutOf input τ
  | 0, τ, h => by cases h
  | n + 1, τ, h => by
    obtain ⟨τ₁, τ₂, x, rfl, h₁, h₂⟩ := trace_bind.mp h
    cases x with
    | ok stored => exact ⟨[], τ₁, τ₂, stored, rfl, h₁⟩
    | error e =>
      obtain ⟨before, put, after, stored, rfl, ht⟩ := rewrite_true h₂
      exact ⟨τ₁ ++ before, put, after, stored, by simp only [List.append_assoc], ht⟩

theorem storedRatchetMatches_true [DecidableEq Snap] {p : Progress Snap}
    {input : SessionRecord Snap} (hr : a.ratchet = some s) (hi : p.sessionPutInput = some input)
    (h : Trace (storedRatchetMatches a p) τ (.ok true)) :
    ∃ record, τ = [⟨.get (.session a.owner input.sessionId), .ok (some record)⟩] ∧
      record.ratchetSnapshot = s := by
  have hsid :
      (p.sessionPutInput <|> a.existingSession).map (·.sessionId) = some input.sessionId := by
    rw [hi]; rfl
  simp only [storedRatchetMatches, hr, hsid, Js.trace_bind_ok] at h
  obtain ⟨τ₁, τ₂, stored, rfl, h₁, h₂⟩ := h
  obtain ⟨r, τ', rfl, h₃⟩ := trace_ask.mp h₁
  obtain ⟨rfl, rfl⟩ := trace_ret.mp h₃
  obtain ⟨rfl, hv⟩ := trace_ret.mp h₂
  cases stored with
  | none => cases hv
  | some record =>
    simp only [Except.ok.injEq] at hv
    exact ⟨record, rfl, of_decide_eq_true hv.symm⟩

/-- Whatever the confirmation does, when it says yes the put has returned and
the read-back after it found the snapshot. -/
theorem confirm_true [DecidableEq Snap] {p q : Progress Snap} {τ' : List (Exch (sdk Snap))}
    (hr : a.ratchet = some s) (hp : Tells s τ p)
    (h : Trace (confirmAdvancedRatchetDurable a p) τ' (.ok (true, q))) :
    ReadBack a.owner s (τ ++ τ') := by
  unfold confirmAdvancedRatchetDurable at h
  split at h
  · rename_i hpers
    obtain ⟨input, hi, before, put, after, stored, rfl, hput⟩ := hp.persisted hpers
    obtain ⟨τ₁, τ₂, same, rfl, h₁, h₂⟩ := Js.trace_bind_ok.mp h
    obtain ⟨rfl, hsame⟩ := trace_ret.mp h₂
    simp only [Except.ok.injEq, Prod.mk.injEq] at hsame
    obtain ⟨rfl, -⟩ := hsame
    obtain ⟨record, rfl, hrec⟩ := storedRatchetMatches_true hr hi h₁
    exact ⟨before ++ put ++ after, [], _, record, by simp only [List.append_nil], hrec,
      before, put, after, input, stored, rfl, hput, hp.snapshot input hi, rfl⟩
  · split at h
    · cases h
    · rename_i input hi
      obtain ⟨τ₁, τ₂, wrote, rfl, h₁, h₂⟩ := Js.trace_bind_ok.mp h
      cases wrote with
      | false => cases h₂
      | true =>
        obtain ⟨before, put, after, stored, rfl, hput⟩ := rewrite_true h₁
        simp only [if_true] at h₂
        obtain ⟨τ₃, τ₄, same, rfl, h₃, h₄⟩ := Js.trace_bind_ok.mp h₂
        obtain ⟨rfl, hsame⟩ := trace_ret.mp h₄
        simp only [Except.ok.injEq, Prod.mk.injEq] at hsame
        obtain ⟨rfl, -⟩ := hsame
        obtain ⟨record, rfl, hrec⟩ := storedRatchetMatches_true hr hi h₃
        exact ⟨τ ++ (before ++ put ++ after), [], _, record,
          by simp only [List.append_nil, List.append_assoc], hrec, τ ++ before, put, after, input,
          stored, by simp only [List.append_assoc], hput, hp.snapshot input hi, rfl⟩

theorem recover_ok [DecidableEq Snap] {p : Progress Snap} {e : Err} {r : CommitResult Snap}
    {τ' : List (Exch (sdk Snap))} (hr : a.ratchet = some s) (hp : Tells s τ p)
    (h : Trace (recoverCommitAfterDecrypt svc a p e) τ' (.ok r)) :
    ReadBack a.owner s (τ ++ τ') := by
  obtain ⟨τ₁, τ₂, ⟨durable, q⟩, rfl, h₁, h₂⟩ := Js.trace_bind_ok.mp h
  obtain ⟨τ₃, τ₄, _, rfl, h₃, _⟩ := Js.trace_bind_ok.mp h₂
  cases durable with
  | false => cases h₃
  | true =>
    rw [← List.append_assoc]
    exact (confirm_true hr hp h₁).append _

theorem CommitArgs.snapshot_eq (hr : a.ratchet = some s) : a.snapshot = some s := by
  simp only [CommitArgs.snapshot, hr]

/-- **Durability.** -/
theorem commit_durable [DecidableEq Snap] (svc : Service Snap) (a : CommitArgs Snap) (s : Snap)
    (hr : a.ratchet = some s) (τ : List (Exch (sdk Snap))) (r : CommitResult Snap)
    (h : Trace (commitSessionAfterDecrypt svc a) τ (.ok r)) :
    PutReturned s τ ∧
      ∀ τ₁ τ₂ p e, τ = τ₁ ++ τ₂ → Trace (commitSession svc a) τ₁ (.error (p, e)) →
        Trace (recoverCommitAfterDecrypt svc a p e) τ₂ (.ok r) → ReadBack a.owner s τ := by
  have hs := CommitArgs.snapshot_eq hr
  have hback : ∀ τ₁ τ₂ p e, τ = τ₁ ++ τ₂ → Trace (commitSession svc a) τ₁ (.error (p, e)) →
      Trace (recoverCommitAfterDecrypt svc a p e) τ₂ (.ok r) → ReadBack a.owner s τ := by
    rintro τ₁ τ₂ p e rfl h₁ h₂
    exact recover_ok hr (commitSession_error hs h₁) h₂
  refine ⟨?_, hback⟩
  obtain ⟨τ₁, τ₂, x, rfl, h₁, h₂⟩ := trace_bind.mp h
  cases x with
  | ok r' =>
    obtain ⟨rfl, -⟩ := trace_ret.mp h₂
    rw [List.append_nil]
    exact commitSession_ok hs h₁
  | error pe => exact (hback τ₁ τ₂ pe.1 pe.2 rfl h₁ h₂).putReturned

/-- A first decrypt on a link that waits for its confirmation. -/
def firstDecrypt : CommitArgs Nat :=
  ⟨Counting.a, Counting.link .handshakeSent, Counting.b, some 2, .active, .sessionEstablished,
    some (Counting.session .active none 1), false, none, .sessionEstablished,
    "Secure session confirmed", [], 5⟩

/-- The first put lands and reports a failure; the rewrite returns, the
read-back agrees, and the second commit goes through. -/
theorem commit_durable_landed_then_failed :
    ∃ τ r, Trace (commitSessionAfterDecrypt Counting.svc firstDecrypt) τ (.ok r) ∧
      PutReturned 2 τ := by
  have h : ((system Counting.svc).solo 0
      (.ofStore (Counting.linked .handshakeSent .active) [Counting.b])
      (commitSessionAfterDecrypt Counting.svc firstDecrypt)
      [.time 5, .ok, .landFail Counting.fault, .ok, .ok, .ok, .ok, .ok, .time 5, .ok, .ok, .ok, .ok,
        .ok, .ok, .fresh Counting.a, .time 5, .ok, .ok, .ok, .ok, .ok, .ok, .ok, .ok, .ok, .ok]).any
      (fun x => x.2.1.toBool) = true := by decide
  obtain ⟨τ, r, m', hs⟩ := System.solo_ok h
  have ht := System.solo_trace hs
  exact ⟨τ, r, ht, (commit_durable Counting.svc firstDecrypt 2 rfl τ r ht).1⟩

end RezSdk.L4.CommitDurability
