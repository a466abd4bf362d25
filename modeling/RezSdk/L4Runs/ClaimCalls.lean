import RezSdk.L4Runs.ClaimShape

/-!
# The calls of the claim store

`Watch` says where a call stands: what it has checked, which change it has made
and on which store, and whether its write has failed, so that `undoOf` is the
one stretch it still owes. `Sound` is the store's own invariant: every record
object is well formed and every entry of the map refers to a record of its
inbox. A record object keeps its inbox for ever (`Extends`), so what a
suspended call holds stays valid.

* `obeys_run`: what every call does, stretch by stretch.
* `shape_kept`: as long as the clock of `remintGeneration` reads a positive
  number, every claim in memory has all of the close keys and the generation
  or none, the producers agree on it, and the table that would be written
  hydrates to the same claims.
* `clock_zero`: `remintGeneration` writes the clock's value without the check
  that `#normalizeStored` makes, so with another clock the claim is lost on the
  next start.
-/
namespace RezSdk.L4.ClaimCalls

open RezSdk.L1 RezSdk.L2.InboxClaims RezSdk.L4.ClaimShape

variable {Cap : Type} {lib : Lib Cap}

abbrev Exch (Cap : Type) := Proc.Exch (claimStore Cap)
abbrev ClaimEvent (Cap : Type) := Event (claimStore Cap) (ObjFate Input outside)

/-! ## Generations -/

theorem roundNat_pos {n : Nat} (h : 0 < n) : 0 < JsNumber.roundNat n := by
  unfold JsNumber.roundNat
  split
  · exact h
  · have hpow : 0 < 2 ^ (n.log2 - 52) := Nat.two_pow_pos _
    have hhigh : 0 < n / 2 ^ (n.log2 - 52) := by
      refine Nat.div_pos ?_ hpow
      exact (Nat.pow_le_pow_right (by omega) (Nat.sub_le _ _)).trans (Nat.log2_self_le (by omega))
    dsimp only
    split
    · exact Nat.mul_pos (Nat.succ_pos _) hpow
    · exact Nat.mul_pos hhigh hpow

theorem isInteger_addOne {g : JsNumber} (h : g.isInteger = true) : g.addOne.isInteger = true := by
  cases g with
  | fin q => exact decide_eq_true (Rat.den_natCast (JsNumber.roundNat (q.num.toNat + 1)))
  | _ => cases h

theorem atLeastOne_addOne {g : JsNumber} (h : g.isInteger = true) : g.addOne.atLeastOne = true := by
  cases g with
  | fin q =>
    refine decide_eq_true ?_
    have hpos := roundNat_pos (Nat.succ_pos q.num.toNat)
    exact_mod_cast hpos
  | _ => cases h

/-! ## Where a call stands -/

inductive Watch (Cap : Type)
  | start
  /-- holds the record of a re-mint -/
  | checked (m : Reminting)
  | signing (m : Reminting) (nowMs : JsNumber)
  /-- has changed the store it found by this stretch, and waits for its write -/
  | changed (l : Stretch Cap) (before : Store Cap)
  /-- its write has failed -/
  | failed (l : Stretch Cap) (before : Store Cap)
  /-- its write has landed -/
  | landed (l : Stretch Cap) (before : Store Cap)
  | ended

/-- The stretch that takes a change back. -/
def undoOf (lib : Lib Cap) (before : Store Cap) : Stretch Cap → Option (Stretch Cap)
  | .persist claim =>
    (before.persist lib claim).1.toOption.map fun p => .persistUndo p.inboxId p.existing
  | .lease a =>
    (before.recordAcceptedLease lib a).1.toOption.map fun p => .leaseUndo p.ref p.previous
  | .remintCommit m _ => some (.remintUndo m.inboxId before.heap[m.ref]?)
  | _ => none

theorem undoOf_persist (s : Store Cap) (claim : Material Cap) : undoOf lib s (.persist claim) =
    (s.persist lib claim).1.toOption.map fun p => .persistUndo p.inboxId p.existing := rfl

theorem undoOf_lease (s : Store Cap) (a : LeaseArgs) : undoOf lib s (.lease a) =
    (s.recordAcceptedLease lib a).1.toOption.map fun p => .leaseUndo p.ref p.previous := rfl

/-- The stretch makes a change, and asks for a write. -/
def changes (lib : Lib Cap) (before : Store Cap) (l : Stretch Cap) : Bool :=
  (undoOf lib before l).isSome

/-- What a re-mint may write. -/
structure ValidMinted (minted : Minted) : Prop where
  closePublic : isId minted.closePublicKeyB64 = true
  closePrivate : isId minted.closePrivateKeyB64 = true
  integer : minted.generation.isInteger = true
  atLeastOne : minted.generation.atLeastOne = true
  claimedAtMs : minted.claimedAtMs.positive = true
  signature : isId minted.claimSignatureB64 = true

/-- The stretches a call may run from where it stands. -/
def Legal (lib : Lib Cap) : Watch Cap → Stretch Cap → Prop
  | .start, .persist _ => True
  | .start, .lease _ => True
  | .start, .remintCheck _ => True
  | .checked m, .remintSign m' => m' = m
  | .signing m nowMs, .remintCommit m' minted =>
    m' = m ∧ minted.generation = m.finalGeneration.addOne ∧
      minted.claimedAtMs = nowMs ∧ ValidMinted minted
  | .failed l before, u => undoOf lib before l = some u
  | .landed _ _, .leaseRead _ => True
  | _, _ => False

/-- Where a call at `w` stands after a stretch on the store `s`. -/
def follow (lib : Lib Cap) (w : Watch Cap) (s : Store Cap) (i : Input) : Stretch Cap → Watch Cap
  | .remintCheck a => match s.remintCheck lib a with
    | .ok m => .checked m
    | .error _ => .ended
  | .remintSign m => .signing m i.nowMs
  | .leaseRead _ => w
  | l => if changes lib s l then .changed l s else .ended

def monitor (lib : Lib Cap) : Monitor (claimStore Cap) (Watch Cap) where
  next
    | w, ⟨.run l _, (i, s)⟩ => follow lib w s i l
    | .changed l before, ⟨.await (.set _), .ok ()⟩ => .landed l before
    | .changed l before, ⟨.await (.set _), .error _⟩ => .failed l before
    | w, _ => w
  may w
    | .run l g => g = (fun _ s => l.apply lib s) ∧ Legal lib w l
    | .await (.set ticket) => ∃ l before, w = .changed l before ∧ ticket = before.tickets
    | .await .generate => ∃ m, w = .checked m
    | .await (.sign ..) => ∃ m nowMs, w = .signing m nowMs

def Lawful : Exch Cap → Prop
  | ⟨.run (.remintSign _) _, (i, _)⟩ => i.nowMs.positive = true
  | ⟨.await .generate, .ok (closePublicKey, closePrivateKey)⟩ =>
    closePublicKey ≠ [] ∧ closePrivateKey ≠ []
  | ⟨.await (.sign ..), .ok sig⟩ => sig ≠ []
  | _ => True

/-- The clock that `remintGeneration` reads is a positive number. -/
def clockReads : Exch Cap → Prop
  | ⟨.run (.remintSign _) _, (i, _)⟩ => i.nowMs.positive = true
  | _ => True

/-- What is left of a call once its result is there: nothing is owed. -/
def Settles : Watch Cap → Except Err Result → Prop
  | .changed _ _, _ => False
  | .failed _ _, _ => False
  | .landed (.remintCommit m minted) _, x =>
    x = .ok (.reminted m.inboxId m.finalGeneration minted.generation)
  | .landed _ _, .error _ => False
  | _, .ok (.reminted ..) => False
  | _, _ => True

/-! ## The calls obey -/

section

variable {l : Stretch Cap} {before : Store Cap} {Q : Watch Cap → Except Err Unit → Prop}

/-- Waiting for the write of a change; a failed one is taken back. -/
theorem obeys_written {u : Stretch Cap} (hundo : undoOf lib before l = some u)
    (hok : Q (.landed l before) (.ok ())) (herror : ∀ e, Q .ended (.error e))
    (hover : ∀ w s i, follow lib w s i u = .ended) :
    Obeys (monitor lib) Lawful Q (.changed l before)
      (written before.tickets (stretch u fun _ s => (.ok (), u.apply lib s))) := by
  refine obeys_attempt ⟨⟨l, before, rfl, rfl⟩, fun answer _ => ?_⟩
  match answer with
  | .ok () => exact hok
  | .error e =>
    refine obeys_js_bind ⟨⟨rfl, hundo⟩, fun x _ => ?_⟩
    change Obeys (monitor lib) Lawful Q (follow lib (.failed l before) x.2 x.1 u)
        (throw e : Claiming Cap Unit)
    rw [hover]
    exact herror e

end

def IsUndo : Stretch Cap → Prop
  | .persistUndo .. => True
  | .leaseUndo .. => True
  | .remintUndo .. => True
  | _ => False

theorem isUndo_undoOf {u l : Stretch Cap} {before : Store Cap} (h : undoOf lib before l = some u) :
    IsUndo u := by
  cases l with
  | persist claim =>
    obtain ⟨p, -, rfl⟩ := Option.map_eq_some_iff.mp h
    trivial
  | lease a =>
    obtain ⟨p, -, rfl⟩ := Option.map_eq_some_iff.mp h
    trivial
  | remintCommit m minted =>
    cases h
    trivial
  | _ => cases h

theorem follow_undo {u l : Stretch Cap} {before : Store Cap} (h : undoOf lib before l = some u)
    (w : Watch Cap) (s : Store Cap) (i : Input) : follow lib w s i u = .ended := by
  have hu := isUndo_undoOf h
  cases u with
  | persistUndo inboxId existing => rfl
  | leaseUndo ref previous => rfl
  | remintUndo inboxId previous => rfl
  | _ => exact hu.elim

/-- The check and the signing of a re-mint change nothing, nor does a read. -/
def Looks : Stretch Cap → Prop
  | .remintCheck _ => True
  | .remintSign _ => True
  | .leaseRead _ => True
  | _ => False

theorem follow_rest {l : Stretch Cap} (hl : ¬ Looks l) (w : Watch Cap) (s : Store Cap) (i : Input) :
    follow lib w s i l = if changes lib s l then .changed l s else .ended := by
  cases l with
  | remintCheck a => exact absurd trivial hl
  | remintSign m => exact absurd trivial hl
  | leaseRead ref => exact absurd trivial hl
  | _ => rfl

theorem follow_changed {w : Watch Cap} {l u : Stretch Cap} {s : Store Cap} (i : Input)
    (h : undoOf lib s l = some u) : follow lib w s i l = .changed l s := by
  have hl : ¬ Looks l := by
    intro hl
    cases l <;> first | exact hl | cases h
  have hchanges : changes lib s l = true := by
    unfold changes
    rw [h]
    rfl
  rw [follow_rest hl, if_pos hchanges]

/-- A call that was refused has changed nothing. -/
theorem follow_refused {w : Watch Cap} {l : Stretch Cap} {s : Store Cap} (i : Input)
    (h : undoOf lib s l = none) (hl : ¬ Looks l) : follow lib w s i l = .ended := by
  have hchanges : ¬ changes lib s l = true := by
    unfold changes
    rw [h]
    nofun
  rw [follow_rest hl, if_neg hchanges]

theorem follow_check {w : Watch Cap} {a : RemintArgs} {s : Store Cap} {m : Reminting} (i : Input)
    (h : s.remintCheck lib a = .ok m) : follow lib w s i (.remintCheck a) = .checked m := by
  unfold follow
  dsimp only
  rw [h]

theorem follow_unchecked {w : Watch Cap} {a : RemintArgs} {s : Store Cap} {e : Err} (i : Input)
    (h : s.remintCheck lib a = .error e) : follow lib w s i (.remintCheck a) = .ended := by
  unfold follow
  dsimp only
  rw [h]

theorem persist_ok {claim : Material Cap} {s : Store Cap} {p : Persisting}
    (h : (s.persist lib claim).1 = .ok p) : p.ticket = s.tickets := by
  unfold Store.persist at h
  split at h
  · cases h
  · cases h
  · dsimp only at h
    rw [Except.ok.injEq] at h
    rw [← h]

theorem lease_ok {a : LeaseArgs} {s : Store Cap} {p : Recording}
    (h : (s.recordAcceptedLease lib a).1 = .ok p) : p.ticket = s.tickets := by
  unfold Store.recordAcceptedLease at h
  split at h
  · cases h
  · dsimp only at h
    split at h
    · cases h
    · split at h
      · cases h
      · rw [Except.ok.injEq] at h
        rw [← h]

/-- What the check of a re-mint establishes. -/
theorem remintCheck_ok {a : RemintArgs} {s : Store Cap} {m : Reminting}
    (h : s.remintCheck lib a = .ok m) :
    ∃ record, s.find m.inboxId = some (m.ref, record) ∧ record.generation = some m.finalGeneration ∧
      m.finalGeneration.isInteger = true ∧ m.finalGeneration.atLeastOne = true := by
  unfold Store.remintCheck at h
  dsimp only at h
  split at h
  · cases h
  · rename_i ref record hfind
    split at h
    · cases h
    · split at h
      · cases h
      · rename_i hgeneration
        split at h
        · cases h
        · rename_i hsame
          rw [Except.ok.injEq] at h
          subst h
          rw [Bool.not_eq_true', Bool.not_eq_false, Bool.and_eq_true] at hgeneration
          exact ⟨record, hfind, not_not.mp hsame, hgeneration.1, hgeneration.2⟩

theorem obeys_persist (claim : Material Cap) :
    Obeys (monitor lib) Lawful Settles .start (persist lib claim) := by
  refine obeys_js_bind ⟨⟨rfl, trivial⟩, fun x _ => ?_⟩
  obtain ⟨i, s⟩ := x
  change Goes (monitor lib) Lawful Settles _ (follow lib .start s i (.persist claim))
      (s.persist lib claim).1
  cases hp : (s.persist lib claim).1 with
  | error e =>
    have hundo : undoOf lib s (.persist claim) = none := by rw [undoOf_persist, hp]; rfl
    rw [follow_refused i hundo not_false]
    trivial
  | ok p =>
    have hundo : undoOf lib s (.persist claim) = some (.persistUndo p.inboxId p.existing) := by
      rw [undoOf_persist, hp]
      rfl
    rw [follow_changed i hundo]
    refine obeys_js_bind ?_
    rw [persist_ok hp]
    exact obeys_written hundo trivial (fun _ => trivial) (follow_undo hundo)

theorem obeys_lease (a : LeaseArgs) :
    Obeys (monitor lib) Lawful Settles .start (recordAcceptedLease lib a) := by
  refine obeys_js_bind ⟨⟨rfl, trivial⟩, fun x _ => ?_⟩
  obtain ⟨i, s⟩ := x
  change Goes (monitor lib) Lawful Settles _ (follow lib .start s i (.lease a))
      (s.recordAcceptedLease lib a).1
  cases hp : (s.recordAcceptedLease lib a).1 with
  | error e =>
    have hundo : undoOf lib s (.lease a) = none := by rw [undoOf_lease, hp]; rfl
    rw [follow_refused i hundo not_false]
    trivial
  | ok p =>
    have hundo : undoOf lib s (.lease a) = some (.leaseUndo p.ref p.previous) := by
      rw [undoOf_lease, hp]
      rfl
    rw [follow_changed i hundo]
    refine obeys_js_bind ?_
    rw [lease_ok hp]
    refine obeys_written hundo ?_ (fun _ => trivial) (follow_undo hundo)
    exact obeys_js_bind ⟨⟨rfl, trivial⟩, fun _ _ => trivial⟩

theorem obeys_remint (hlib : LawfulLib lib) (a : RemintArgs) :
    Obeys (monitor lib) Lawful Settles .start (remintGeneration lib a) := by
  refine obeys_js_bind ⟨⟨rfl, trivial⟩, fun x _ => ?_⟩
  obtain ⟨i, s⟩ := x
  change Goes (monitor lib) Lawful Settles _ (follow lib .start s i (.remintCheck a))
      (s.remintCheck lib a)
  cases hm : s.remintCheck lib a with
  | error e =>
    rw [follow_unchecked i hm]
    trivial
  | ok m =>
    rw [follow_check i hm]
    obtain ⟨-, -, -, hinteger, -⟩ := remintCheck_ok hm
    refine obeys_js_bind ⟨⟨m, rfl⟩, fun keys hkeys => ?_⟩
    match keys with
    | .error e => trivial
    | .ok (closePublicKey, closePrivateKey) =>
      refine obeys_js_bind ⟨⟨rfl, rfl⟩, fun y hclock => ?_⟩
      obtain ⟨j, s'⟩ := y
      change Goes (monitor lib) Lawful Settles _ (.signing m j.nowMs) (s'.remintPayload lib m _ j)
      cases hpayload : s'.remintPayload lib m (lib.bytesToBase64 closePublicKey) j with
      | error e => trivial
      | ok pp =>
        obtain ⟨privateKey, payload⟩ := pp
        have hnow : payload.claimedAtMs = j.nowMs := by
          unfold Store.remintPayload at hpayload
          split at hpayload
          · cases hpayload
          · rename_i record _
            cases hkey : lib.base64ToBytes record.claimantPrivateKeyB64 with
            | error e => rw [hkey] at hpayload; cases hpayload
            | ok key =>
              rw [hkey] at hpayload
              cases hpayload
              rfl
        refine obeys_js_bind ⟨⟨m, j.nowMs, rfl⟩, fun sig hsig => ?_⟩
        match sig with
        | .error e => trivial
        | .ok sig =>
          refine obeys_js_bind ⟨⟨rfl, rfl, rfl, hnow, ?_⟩, fun z _ => ?_⟩
          · exact ⟨hlib.base64 _ hkeys.1, hlib.base64 _ hkeys.2, isInteger_addOne hinteger,
              atLeastOne_addOne hinteger,
              by rw [hnow]; exact hclock, hlib.base64 _ hsig⟩
          · obtain ⟨j', s''⟩ := z
            exact obeys_js_bind
              (obeys_written (l := .remintCommit m _) rfl rfl (fun _ => trivial) fun _ _ _ => rfl)

theorem obeys_run (hlib : LawfulLib lib) (c : Call Cap) :
    Obeys (monitor lib) Lawful Settles .start (run lib c) := by
  cases c with
  | persist claim => exact obeys_persist claim
  | recordAcceptedLease a => exact obeys_lease a
  | remintGeneration a => exact obeys_remint hlib a

/-! ## The store -/

/-- Every record object is well formed, and every entry of the map refers to a
record of its inbox. -/
structure Sound (s : Store Cap) : Prop where
  heap : ∀ r ∈ s.heap, WellFormed r
  refs : ∀ p ∈ s.claims, ∃ r : Record Cap, s.heap[p.2]? = some r ∧ r.inboxId = p.1
  nodup : (s.claims.map Prod.fst).Nodup

/-- A record object stays, and belongs to one inbox for ever. -/
def Extends (s s' : Store Cap) : Prop :=
  ∀ (ref : Nat) (r : Record Cap), s.heap[ref]? = some r →
  ∃ r' : Record Cap, s'.heap[ref]? = some r' ∧ r'.inboxId = r.inboxId

/-- What a stretch needs: an undo gives back a record of the inbox it is for. -/
def Proper (s : Store Cap) : Stretch Cap → Prop
  | .persistUndo inboxId (some ref) => ∃ r : Record Cap, s.heap[ref]? = some r ∧ r.inboxId = inboxId
  | .leaseUndo _ previous => ∀ l, previous = some l → ValidLease l
  | .remintCommit _ minted => ValidMinted minted
  | .remintUndo inboxId previous => ∀ r, previous = some r → WellFormed r ∧ r.inboxId = inboxId
  | _ => True

section

variable {s s' : Store Cap}

theorem Sound.find (h : Sound s) {inboxId : String} {ref : Nat} {r : Record Cap}
    (hf : s.find inboxId = some (ref, r)) :
    OMap.get inboxId s.claims = some ref ∧ s.heap[ref]? = some r ∧ r.inboxId = inboxId := by
  unfold Store.find at hf
  obtain ⟨ref', hget, hmap⟩ := Option.bind_eq_some_iff.mp hf
  obtain ⟨r', hr', heq⟩ := Option.map_eq_some_iff.mp hmap
  rw [Prod.mk.injEq] at heq
  obtain ⟨rfl, rfl⟩ := heq
  obtain ⟨r₁, hr₁, hid⟩ := h.refs _ (OMap.mem_of_get hget)
  rw [hr', Option.some.injEq] at hr₁
  subst hr₁
  exact ⟨hget, hr', hid⟩

theorem sound_persistAll (h : Sound s) : Sound s.persistAll := ⟨h.heap, h.refs, h.nodup⟩

theorem extends_append (r : Record Cap) (claims : List (String × Nat)) :
    Extends s { s with heap := s.heap ++ [r], claims } := by
  intro ref r' hr'
  obtain ⟨hlt, -⟩ := List.getElem?_eq_some_iff.mp hr'
  exact ⟨r', by rw [List.getElem?_append_left hlt]; exact hr', rfl⟩

/-- A new record object takes the place of the inbox's claim. -/
theorem sound_append (h : Sound s) {r : Record Cap} (hr : WellFormed r) :
    Sound
      { s with heap := s.heap ++ [r], claims := OMap.set r.inboxId s.heap.length s.claims } where
  heap r' hr' := by
    rcases List.mem_append.mp hr' with hr' | hr'
    · exact h.heap r' hr'
    · rw [List.mem_singleton.mp hr']
      exact hr
  refs p hp := by
    rcases OMap.mem_set hp with rfl | hp
    · refine ⟨r, ?_, rfl⟩
      dsimp only
      rw [List.getElem?_append_right (Nat.le_refl _), Nat.sub_self]
      rfl
    · obtain ⟨r', hr', hid⟩ := h.refs p hp
      obtain ⟨r₁, hr₁, hid₁⟩ := extends_append r s.claims p.2 r' hr'
      exact ⟨r₁, hr₁, hid₁.trans hid⟩
  nodup := OMap.nodup_set h.nodup

theorem extends_update (ref : Nat) {f : Record Cap → Record Cap}
    (hf : ∀ r, (f r).inboxId = r.inboxId) : Extends s (s.update ref f) := by
  intro ref' r hr
  unfold Store.update
  dsimp only
  rw [List.getElem?_modify, hr]
  refine ⟨if ref = ref' then f r else r, rfl, ?_⟩
  split
  · exact hf r
  · rfl

theorem sound_update (h : Sound s) (ref : Nat) {f : Record Cap → Record Cap}
    (hf : ∀ r, (f r).inboxId = r.inboxId) (hw : ∀ r, WellFormed r → WellFormed (f r)) :
    Sound (s.update ref f) where
  heap r hr := by
    obtain ⟨n, hn⟩ := List.mem_iff_getElem?.mp hr
    unfold Store.update at hn
    dsimp only at hn
    rw [List.getElem?_modify] at hn
    obtain ⟨r', hr', rfl⟩ := Option.map_eq_some_iff.mp hn
    have hold := h.heap r' (List.mem_of_getElem? hr')
    split
    · exact hw r' hold
    · exact hold
  refs p hp := by
    obtain ⟨r, hr, hid⟩ := h.refs p hp
    obtain ⟨r', hr', hid'⟩ := extends_update ref hf p.2 r hr
    exact ⟨r', hr', hid'.trans hid⟩
  nodup := h.nodup

theorem wellFormed_lease {r : Record Cap} (h : WellFormed r) {lease : Option Lease}
    (hl : ∀ l, lease = some l → ValidLease l) : WellFormed { r with lease } :=
  ⟨h.inboxId, h.claimantPublic, h.claimantPrivate, h.signature, h.claimedAtMs,
    match h.close with
    | .none hp hq hg => .none hp hq hg
    | .all hp hq hg hidp hidq hinteger hone => .all hp hq hg hidp hidq hinteger hone,
    hl⟩

theorem wellFormed_minted {r : Record Cap} (h : WellFormed r) {minted : Minted}
    (hm : ValidMinted minted) : WellFormed (minted.into r) :=
  ⟨h.inboxId, h.claimantPublic, h.claimantPrivate, hm.signature, hm.claimedAtMs,
    .all rfl rfl rfl hm.closePublic hm.closePrivate hm.integer hm.atLeastOne, nofun⟩

theorem Extends.refl (s : Store Cap) : Extends s s := fun _ r hr => ⟨r, hr, rfl⟩

/-- What `persist` does to the store. -/
theorem persist_cases (lib : Lib Cap) (h : Sound s) (claim : Material Cap) :
    ((s.persist lib claim).2 = s ∧ undoOf lib s (.persist claim) = none) ∨
      ∃ r : Record Cap, WellFormed r ∧
        undoOf lib s (.persist claim) =
          some (.persistUndo r.inboxId (OMap.get r.inboxId s.claims)) ∧
        (s.persist lib claim).2 =
          { s with
            heap := s.heap ++ [r]
            claims := OMap.set r.inboxId s.heap.length s.claims }.persistAll := by
  rw [undoOf_persist]
  unfold Store.persist
  cases hnormal : normalizeStored lib claim with
  | error e => exact .inl ⟨rfl, rfl⟩
  | ok normalized =>
    cases normalized with
    | none => exact .inl ⟨rfl, rfl⟩
    | some n =>
      have hn := wellFormed_of_normalize hnormal
      refine .inr ⟨_, ?_, ?_, rfl⟩
      rotate_left
      · rfl
      refine wellFormed_lease hn fun l hl => ?_
      split at hl
      · rename_i lease hlease
        exact hn.lease l (hlease.trans hl)
      · obtain ⟨e, he, hl⟩ := Option.bind_eq_some_iff.mp hl
        exact (h.heap e.2 (List.mem_of_getElem? (h.find he).2.1)).lease l hl

/-- What `recordAcceptedLease` does to the store. -/
theorem lease_cases (lib : Lib Cap) (s : Store Cap) (a : LeaseArgs) :
    ((s.recordAcceptedLease lib a).2 = s ∧ undoOf lib s (.lease a) = none) ∨
    ∃ ref record lease, s.find (Json.trimmed a.inboxId) = some (ref, record) ∧ ValidLease lease ∧
      undoOf lib s (.lease a) = some (.leaseUndo ref record.lease) ∧
      (s.recordAcceptedLease lib a).2 =
        (s.update ref fun r => { r with lease := some lease }).persistAll := by
  rw [undoOf_lease]
  unfold Store.recordAcceptedLease
  cases hfind : s.find (Json.trimmed a.inboxId) with
  | none => exact .inl ⟨rfl, rfl⟩
  | some found =>
    obtain ⟨ref, record⟩ := found
    dsimp only
    split
    · exact .inl ⟨rfl, rfl⟩
    · rename_i hvalid
      rw [Bool.not_eq_true', Bool.not_eq_false, Bool.and_eq_true, Bool.and_eq_true] at hvalid
      cases retentionClassArg a.retentionClass with
      | none => exact .inl ⟨rfl, rfl⟩
      | some cls => exact .inr ⟨ref, record, _, rfl, ⟨hvalid.1.1, hvalid.1.2, hvalid.2⟩, rfl, rfl⟩

theorem sound_persistUndo (h : Sound s) {inboxId : String} {existing : Option Nat}
    (hp : Proper s (.persistUndo inboxId existing)) : Sound (s.persistUndo inboxId existing) := by
  cases existing with
  | none =>
    refine ⟨h.heap, fun p hmem => h.refs p ?_, OMap.nodup_delete h.nodup⟩
    exact (List.mem_filter.mp hmem).1
  | some ref =>
    refine ⟨h.heap, fun p hmem => ?_, OMap.nodup_set h.nodup⟩
    rcases OMap.mem_set hmem with rfl | hmem
    · exact hp
    · exact h.refs p hmem

/-- Every stretch keeps the store sound, and every record object its inbox. -/
theorem sound_apply (h : Sound s) {l : Stretch Cap} (hp : Proper s l) :
    Sound (l.apply lib s) ∧ Extends s (l.apply lib s) := by
  cases l with
  | persist claim =>
    change Sound (s.persist lib claim).2 ∧ Extends s (s.persist lib claim).2
    obtain ⟨hs, -⟩ | ⟨r, hr, -, hs⟩ := persist_cases lib h claim
    · rw [hs]
      exact ⟨h, .refl s⟩
    · rw [hs]
      exact ⟨sound_persistAll (sound_append h hr), extends_append r s.claims⟩
  | persistUndo inboxId existing =>
    refine ⟨sound_persistUndo h hp, fun ref r hr => ⟨r, ?_, rfl⟩⟩
    cases existing <;> exact hr
  | lease a =>
    change Sound (s.recordAcceptedLease lib a).2 ∧ Extends s (s.recordAcceptedLease lib a).2
    obtain ⟨hs, -⟩ | ⟨ref, record, lease, -, hlease, -, hs⟩ := lease_cases lib s a
    · rw [hs]
      exact ⟨h, .refl s⟩
    · rw [hs]
      refine ⟨sound_persistAll (sound_update h ref (fun _ => rfl) fun r hr => ?_),
        extends_update ref fun _ => rfl⟩
      refine wellFormed_lease hr ?_
      rintro l ⟨⟩
      exact hlease
  | leaseUndo ref previous =>
    exact ⟨sound_update h ref (fun _ => rfl) fun r hr => wellFormed_lease hr hp,
      extends_update ref fun _ => rfl⟩
  | leaseRead ref => exact ⟨h, .refl s⟩
  | remintCheck a => exact ⟨h, .refl s⟩
  | remintSign m => exact ⟨h, .refl s⟩
  | remintCommit m minted =>
    exact ⟨sound_persistAll (sound_update h m.ref (fun _ => rfl) fun r hr =>
      wellFormed_minted hr hp),
      extends_update m.ref fun _ => rfl⟩
  | remintUndo inboxId previous =>
    cases previous with
    | none => exact ⟨h, .refl s⟩
    | some r =>
      obtain ⟨hr, rfl⟩ := hp r rfl
      exact ⟨sound_append h hr, extends_append r _⟩

theorem sound_answer (h : Sound s) (ticket : Nat) (ok : Bool) : Sound (s.answer lib ticket ok) :=
  ⟨h.heap, h.refs, h.nodup⟩

/-- The map's contents. -/
theorem table_mem (h : Sound s) {p : String × Record Cap} (hp : p ∈ s.table) :
    ∃ ref, (p.1, ref) ∈ s.claims ∧ s.heap[ref]? = some p.2 ∧ p.2.inboxId = p.1 := by
  obtain ⟨⟨id, ref⟩, hmem, hmap⟩ := List.mem_filterMap.mp hp
  obtain ⟨r, hr, rfl⟩ := Option.map_eq_some_iff.mp hmap
  obtain ⟨r', hr', hid⟩ := h.refs _ hmem
  rw [hr, Option.some.injEq] at hr'
  subst hr'
  exact ⟨ref, hmem, hr, hid⟩

/-- With sound references the contents are the map itself, read through the
heap. -/
theorem table_keys (h : Sound s) : s.table.map Prod.fst = s.claims.map Prod.fst := by
  have hall : ∀ claims : List (String × Nat),
      (∀ p ∈ claims, ∃ r : Record Cap, s.heap[p.2]? = some r ∧ r.inboxId = p.1) →
      (claims.filterMap fun p => s.heap[p.2]?.map fun r => (p.1, r)).map Prod.fst =
      claims.map Prod.fst := by
    intro claims hrefs
    induction claims with
    | nil => rfl
    | cons p claims ih =>
      obtain ⟨r, hr, -⟩ := hrefs p (.head _)
      rw [List.filterMap_cons_some (by rw [hr]; rfl), List.map_cons, List.map_cons,
        ih fun q hq => hrefs q (.tail _ hq)]
  exact hall s.claims h.refs

theorem wellKept_table (h : Sound s) : WellKept s.table where
  wellFormed p hp := by
    obtain ⟨ref, -, hr, -⟩ := table_mem h hp
    exact h.heap p.2 (List.mem_of_getElem? hr)
  own p hp := by
    obtain ⟨ref, -, -, hid⟩ := table_mem h hp
    exact hid
  nodup := by
    rw [table_keys h]
    exact h.nodup

end

/-! ## What a suspended call holds -/

/-- The call can go on: the record it holds is one of its inbox, and its undo is
proper. -/
def Held (lib : Lib Cap) (s : Store Cap) : Watch Cap → Prop
  | .checked m => ∃ r : Record Cap, s.heap[m.ref]? = some r ∧ r.inboxId = m.inboxId
  | .signing m _ => ∃ r : Record Cap, s.heap[m.ref]? = some r ∧ r.inboxId = m.inboxId
  | .changed l before => ∀ u, undoOf lib before l = some u → Proper s u
  | .failed l before => ∀ u, undoOf lib before l = some u → Proper s u
  | _ => True

theorem Proper.mono {s s' : Store Cap} (hs : Extends s s') {l : Stretch Cap} (h : Proper s l) :
    Proper s' l := by
  cases l with
  | persistUndo inboxId existing =>
    cases existing with
    | none => trivial
    | some ref =>
      obtain ⟨r, hr, hid⟩ := h
      obtain ⟨r', hr', hid'⟩ := hs ref r hr
      exact ⟨r', hr', hid'.trans hid⟩
  | _ => exact h

theorem Held.mono {s s' : Store Cap} (hs : Extends s s') {w : Watch Cap} (h : Held lib s w) :
    Held lib s' w := by
  have hrecord : ∀ m : Reminting, (∃ r : Record Cap, s.heap[m.ref]? = some r ∧
      r.inboxId = m.inboxId) →
      ∃ r : Record Cap, s'.heap[m.ref]? = some r ∧ r.inboxId = m.inboxId := by
    rintro m ⟨r, hr, hid⟩
    obtain ⟨r', hr', hid'⟩ := hs m.ref r hr
    exact ⟨r', hr', hid'.trans hid⟩
  cases w with
  | checked m => exact hrecord m h
  | signing m nowMs => exact hrecord m h
  | changed l before => exact fun u hu => (h u hu).mono hs
  | failed l before => exact fun u hu => (h u hu).mono hs
  | _ => trivial

/-- A legal stretch is proper. -/
theorem proper_of_legal {s : Store Cap} {w : Watch Cap} {l : Stretch Cap} (h : Legal lib w l)
    (hw : Held lib s w) : Proper s l := by
  cases w with
  | failed l' before => exact hw l h
  | signing m nowMs =>
    cases l with
    | remintCommit m' minted => exact h.2.2.2
    | _ => exact h.elim
  | start => cases l <;> trivial
  | checked m => cases l <;> trivial
  | landed l' before => cases l <;> trivial
  | changed l' before => exact h.elim
  | ended => exact h.elim

/-- What a call holds after one of its stretches. -/
theorem held_follow {s : Store Cap} (hs : Sound s) {w : Watch Cap} {l : Stretch Cap}
    (h : Legal lib w l) (hw : Held lib s w) (i : Input) :
    Held lib (l.apply lib s) (follow lib w s i l) := by
  have hextends : Extends s (l.apply lib s) := (sound_apply hs (proper_of_legal h hw)).2
  cases l with
  | remintCheck a =>
    cases hm : s.remintCheck lib a with
    | error e =>
      rw [follow_unchecked i hm]
      trivial
    | ok m =>
      rw [follow_check i hm]
      obtain ⟨record, hfind, -⟩ := remintCheck_ok hm
      obtain ⟨-, hr, hid⟩ := hs.find hfind
      exact ⟨record, hr, hid⟩
  | remintSign m =>
    cases w with
    | checked m' =>
      have hm : m = m' := h
      subst hm
      exact hw
    | failed l' before => exact (isUndo_undoOf h).elim
    | _ => exact h.elim
  | leaseRead ref => exact hw
  | persist claim =>
    obtain ⟨-, hundo⟩ | ⟨r, hr, hundo, -⟩ := persist_cases lib hs claim
    · rw [follow_refused i hundo not_false]
      trivial
    · rw [follow_changed i hundo]
      intro u hu
      cases hundo.symm.trans hu
      refine Proper.mono hextends ?_
      cases hget : OMap.get r.inboxId s.claims with
      | none => trivial
      | some ref => exact hs.refs _ (OMap.mem_of_get hget)
  | lease a =>
    obtain ⟨-, hundo⟩ | ⟨ref, record, lease, hfind, hlease, hundo, -⟩ := lease_cases lib s a
    · rw [follow_refused i hundo not_false]
      trivial
    · rw [follow_changed i hundo]
      intro u hu
      cases hundo.symm.trans hu
      exact (hs.heap record (List.mem_of_getElem? (hs.find hfind).2.1)).lease
  | remintCommit m minted =>
    cases w with
    | signing m' nowMs =>
      obtain ⟨rfl, -⟩ := h
      obtain ⟨r, hr, hid⟩ := hw
      intro u hu
      cases hu
      intro r' hr'
      rw [hr, Option.some.injEq] at hr'
      subst hr'
      exact ⟨hs.heap r (List.mem_of_getElem? hr), hid⟩
    | failed l' before => exact (isUndo_undoOf h).elim
    | _ => exact h.elim
  | _ => trivial

/-! ## Every run -/

/-- A store that has just hydrated is sound. -/
theorem sound_hydrated {stored : Option Json} {table : Table Cap} (h : WellKept table) :
    Sound (.hydrated stored table) where
  heap r hr := by
    obtain ⟨p, hp, rfl⟩ := List.mem_map.mp hr
    exact h.wellFormed p hp
  refs p hp := by
    obtain ⟨id, n⟩ := p
    have hn := List.mem_zipIdx_iff_getElem?.mp hp
    rw [List.getElem?_map] at hn
    obtain ⟨q, hq, rfl⟩ := Option.map_eq_some_iff.mp hn
    refine ⟨q.2, ?_, h.own q (List.mem_of_getElem? hq)⟩
    change (table.map Prod.snd)[n]? = _
    rw [List.getElem?_map, hq]
    rfl
  nodup := by
    change (((table.map Prod.fst).zipIdx).map Prod.fst).Nodup
    rw [List.zipIdx_map_fst]
    exact h.nodup

/-- Its contents are what it hydrated. -/
theorem table_hydrated {stored : Option Json} {table : Table Cap} :
    (Store.hydrated stored table).table = table := by
  have hall : ∀ (rows : Table Cap) (n : Nat), (∀ k p, rows[k]? = some p → table[n + k]? = some p) →
      ((rows.map Prod.fst).zipIdx n).filterMap (fun p => (table.map Prod.snd)[p.2]?.map fun r =>
      (p.1, r)) = rows := by
    intro rows
    induction rows with
    | nil =>
      intro n _
      rfl
    | cons p rows ih =>
      intro n hrows
      have hhead : table[n]? = some p := hrows 0 p rfl
      rw [List.map_cons, List.zipIdx_cons, List.filterMap_cons_some (b := p), ih (n + 1)]
      · intro k q hq
        rw [Nat.add_assoc, Nat.add_comm 1 k]
        exact hrows (k + 1) q hq
      · rw [List.getElem?_map, hhead]
        rfl
  exact hall table 0 fun k p hp => by rwa [Nat.zero_add]

abbrev Conforms (lib : Lib Cap) : ClaimState Cap → Prop :=
  System.Conforms (monitor lib) Lawful (fun _ => .start) fun _ w x => Settles w x

/-- Where call `t` stands. -/
abbrev watch (lib : Lib Cap) (s : ClaimState Cap) (t : Nat) : Option (Watch Cap) :=
  System.view (monitor lib) (fun _ => .start) s t

structure Inv (lib : Lib Cap) (s : ClaimState Cap) : Prop where
  conforms : Conforms lib s
  sound : Sound s.mem
  held : ∀ t w, watch lib s t = some w → Held lib s.mem w

/-- The runs start with a store that has hydrated, and the clock of
`remintGeneration` always reads a positive number. -/
structure Clocked (lib : Lib Cap) (D : ClaimRules Cap) : Prop where
  init : ∀ s, D.init s → Fresh lib s
  ok : ∀ s e, D.ok s e → clockReads e.exch

section

variable {s s' : ClaimState Cap} {e : ClaimEvent Cap} {c : Call Cap}
  {k : (claimStore Cap).Ans e.op → Proc (claimStore Cap) (Except Err Result)}

theorem lawful_fires (hf : Pool.Fires (claims lib) s e c k s') (hclock : clockReads e.exch) :
    Lawful e.exch := by
  obtain ⟨l, g, i, hx, -⟩ | ⟨o, r, hx, hallows, -⟩ := object_fires hf
  · rw [hx] at hclock ⊢
    cases l with
    | remintSign m => exact hclock
    | _ => trivial
  · rw [hx]
    cases o with
    | set ticket => trivial
    | generate =>
      match r, hallows with
      | .error _, _ => trivial
      | .ok (p, q), hallows =>
        have hallows : (!p.isEmpty && !q.isEmpty) = true := hallows
        rw [Bool.and_eq_true, Bool.not_eq_true', Bool.not_eq_true', List.isEmpty_eq_false_iff,
          List.isEmpty_eq_false_iff] at hallows
        exact hallows
    | sign privateKey msg =>
      match r, hallows with
      | .error _, _ => trivial
      | .ok sig, hallows =>
        have hallows : (!sig.isEmpty) = true := hallows
        rw [Bool.not_eq_true', List.isEmpty_eq_false_iff] at hallows
        exact hallows

/-- What one event does: a stretch the call may run, the answer to its write,
or something that leaves the store and the call where they were. -/
inductive Effect (lib : Lib Cap) (s s' : ClaimState Cap) (e : ClaimEvent Cap) (w : Watch Cap) : Prop
  | stretch (l : Stretch Cap) (i : Input) (exch : e.exch = ⟨.run l fun _ s => l.apply lib s,
      (i, s.mem)⟩)
      (legal : Legal lib w l) (mem : s'.mem = l.apply lib s.mem)
      (next : (monitor lib).next w e.exch = follow lib w s.mem i l)
  | landed (l : Stretch Cap) (before : Store Cap) (at_ : w = .changed l before)
      (exch : e.exch = ⟨.await (.set before.tickets), .ok ()⟩)
      (queued : (s.mem.queue.any fun q => q.1 = before.tickets) = true)
      (mem : s'.mem = s.mem.answer lib before.tickets true)
      (next : (monitor lib).next w e.exch = .landed l before)
  | failed (l : Stretch Cap) (before : Store Cap) (err : Err) (at_ : w = .changed l before)
      (exch : e.exch = ⟨.await (.set before.tickets), .error err⟩)
      (queued : (s.mem.queue.any fun q => q.1 = before.tickets) = true)
      (mem : s'.mem = s.mem.answer lib before.tickets false)
      (next : (monitor lib).next w e.exch = .failed l before)
  | still (other : ∀ t r, e.exch ≠ ⟨.await (.set t), r⟩) (notRun : ∀ l g x, e.exch ≠ ⟨.run l g, x⟩)
      (mem : s'.mem = s.mem)
      (next : (monitor lib).next w e.exch = w)

theorem effect_fires (h : Conforms lib s) (hf : Pool.Fires (claims lib) s e c k s') :
    Effect lib s s' e (Pool.mon (monitor lib) .start e.tid s.log) := by
  have hmay : (monitor lib).may (Pool.mon (monitor lib) .start e.tid s.log) e.exch.op := h.may hf
  generalize Pool.mon (monitor lib) .start e.tid s.log = w at hmay
  obtain ⟨l, g, i, hx, hs⟩ | ⟨o, r, hx, hallows, hs⟩ := object_fires hf
  · rw [hx] at hmay
    obtain ⟨rfl, hlegal⟩ := hmay
    exact .stretch l i hx hlegal hs (by rw [hx]; rfl)
  · rw [hx] at hmay
    cases o with
    | set ticket =>
      obtain ⟨l, before, rfl, rfl⟩ := hmay
      match r with
      | .ok () => exact .landed l before rfl hx hallows hs (by rw [hx]; rfl)
      | .error err => exact .failed l before err rfl hx hallows hs (by rw [hx]; rfl)
    | generate =>
      obtain ⟨m, rfl⟩ := hmay
      refine .still (fun t r h => ?_) (fun l g x h => ?_) hs (by rw [hx]; rfl)
      · rw [hx] at h
        cases h
      · rw [hx] at h
        cases h
    | sign privateKey msg =>
      obtain ⟨m, nowMs, rfl⟩ := hmay
      refine .still (fun t r h => ?_) (fun l g x h => ?_) hs (by rw [hx]; rfl)
      · rw [hx] at h
        cases h
      · rw [hx] at h
        cases h

end

section

variable {s s' : ClaimState Cap} {e : ClaimEvent Cap} {c : Call Cap}
  {k : (claimStore Cap).Ans e.op → Proc (claimStore Cap) (Except Err Result)}

theorem Inv.init {m : Store Cap} (h : Fresh lib m) : Inv lib ⟨m, [], []⟩ where
  conforms := System.conforms_init m
  sound := by
    obtain ⟨stored, table, htable, rfl⟩ := h
    exact sound_hydrated (wellKept_hydrate htable)
  held t w hw := by
    rw [watch, System.view_init] at hw
    cases hw

theorem Inv.spawn (hlib : LawfulLib lib) (h : Inv lib s) (c : Call Cap) :
    Inv lib (s.spawn (claims lib) c) where
  conforms := System.conforms_spawn h.conforms (obeys_run hlib c)
  sound := h.sound
  held t w hw := by
    obtain ⟨-, rfl⟩ | hold := h.conforms.view_spawned hw
    · trivial
    · exact h.held t w hold

/-- What every event does to the store and to its own call. -/
theorem Inv.effect (h : Inv lib s) (hf : Pool.Fires (claims lib) s e c k s') :
    ∃ w, watch lib s e.tid = some w ∧ watch lib s' e.tid = some ((monitor lib).next w e.exch) ∧
      Effect lib s s' e w :=
  ⟨_, System.view_fired hf, System.view_self hf, effect_fires h.conforms hf⟩

theorem Inv.fires (h : Inv lib s) (hf : Pool.Fires (claims lib) s e c k s')
    (hclock : clockReads e.exch) : Inv lib s' := by
  obtain ⟨w, hw, hw', heffect⟩ := h.effect hf
  have hheld := h.held e.tid w hw
  have hall : ∀ {m : Store Cap}, s'.mem = m → Sound m → Extends s.mem m →
      Held lib m ((monitor lib).next w e.exch) → Inv lib s' := by
    intro m hm hsound hextends hself
    refine ⟨System.conforms_fires h.conforms hf (lawful_fires hf hclock), hm ▸ hsound,
      fun t v hv => ?_⟩
    rw [hm]
    obtain ⟨rfl, rfl⟩ | ⟨-, hv⟩ := System.view_cases hf hw' hv
    · exact hself
    · exact (h.held t v hv).mono hextends
  cases heffect with
  | stretch l i hx hlegal hmem hnext =>
    obtain ⟨hsound, hextends⟩ := sound_apply h.sound (proper_of_legal hlegal hheld)
    exact hall hmem hsound hextends (hnext ▸ held_follow h.sound hlegal hheld i)
  | landed l before hw hx _ hmem hnext =>
    refine hall hmem (sound_answer h.sound _ _) (fun _ r hr => ⟨r, hr, rfl⟩) ?_
    rw [hnext]
    trivial
  | failed l before err hw hx _ hmem hnext =>
    refine hall hmem (sound_answer h.sound _ _) (fun _ r hr => ⟨r, hr, rfl⟩) ?_
    rw [hnext]
    subst hw
    exact hheld
  | still _ _ hmem hnext =>
    refine hall hmem h.sound (.refl _) ?_
    rw [hnext]
    exact hheld

end

theorem inv_inductive (hlib : LawfulLib lib) {D : ClaimRules Cap} (hD : Clocked lib D) :
    ((claims lib).lts D).Inductive (Inv lib) :=
  System.inductive_of (fun m hm => .init (hD.init m hm)) (fun _ c h _ => h.spawn hlib c)
    fun _ e _ _ _ h hf hok => h.fires hf (hD.ok _ e hok)

/-- The clock that `remintGeneration` reads is always a positive number. -/
def goodClock (lib : Lib Cap) : ClaimRules Cap where
  init := Fresh lib
  may _ _ := True
  ok _ e := clockReads e.exch

/-- Every claim has all or none of the close keys and an integer generation of
at least 1, the producers agree on it, and a fresh store would read the table
as it is. -/
structure ShapeKept (lib : Lib Cap) (s : Store Cap) : Prop where
  close : ∀ p ∈ s.table, Close p.2
  agree : ∀ p ∈ s.table, Agree lib p.2
  roundTrip : hydrate lib (some (tableJson lib s.table)) = .ok s.table

/-- **Shape and round trip**, in every run with a clock that reads a positive
number. -/
theorem shape_kept (hlib : LawfulLib lib) (s : ClaimState Cap)
    (hr : ((claims lib).lts (goodClock lib)).Reachable s) : ShapeKept lib s.mem := by
  have hinv := (inv_inductive hlib ⟨fun _ h => h, fun _ _ h => h⟩).reachable s hr
  have hkept := wellKept_table hinv.sound
  have hclose : ∀ p ∈ s.mem.table, Close p.2 := fun p hp => (hkept.wellFormed p hp).close
  exact ⟨hclose, fun p hp => producers_agree hlib (hclose p hp), hydrate_table hlib hkept⟩

namespace Example

def textLib : Lib String where
  number
    | .num n => n
    | _ => .nan
  string _ := ""
  makeCapability
    | .obj [("id", .str s)] => .ok s
    | _ => .error { message := "RCapability requires id" }
  capabilityFields c := [("id", .str c)]
  bytesToBase64
    | [] => ""
    | [1] => "AQ=="
    | [2] => "Ag=="
    | [3] => "Aw=="
    | _ => "AAAA"
  base64ToBytes _ := .ok [0]
  claimBytes _ := [9]
  claimLeasePresence r :=
    if r.closePublicKeyB64.isSome && r.generation.isSome then .all
    else if r.closePublicKeyB64.isSome || r.generation.isSome then .some else .none

theorem lawful : LawfulLib textLib where
  number _ := rfl
  capability _ := rfl
  base64 b hb := by
    unfold textLib
    dsimp only
    split
    · exact absurd rfl hb
    all_goals decide
  presence r := by
    change (if _ then Presence.all else _) = _ ↔ _
    cases r.closePublicKeyB64.isSome <;> cases r.generation.isSome <;> decide

/-- A claim of generation `g` for the inbox. -/
def claim (inboxId : String) (g : ℚ) (closeKey signature : String) : Material String where
  value := some (.obj [("inboxId", .str inboxId), ("claimantPublicKeyB64", .str "cp"),
    ("claimantPrivateKeyB64", .str "cs"),
    ("claimedAtMs", .num (.fin 1000)), ("claimSignatureB64", .str signature),
    ("closePublicKeyB64", .str closeKey),
    ("closePrivateKeyB64", .str "secret"), ("generation", .num (.fin g))])
  rootCap := some "cap"

def remint (inboxId : String) (g : ℚ) : Call String :=
  .remintGeneration ⟨some (.str inboxId), some (.num (.fin g))⟩

/-- Every write succeeds; the keys are fresh by their place in the run. -/
def smooth (nowMs : ℚ) (n : Nat) (_ : (claimStore String).Op) : ObjFate Input outside where
  input := ⟨.fin nowMs⟩
  answer
    | .set _ => some (.ok ())
    | .generate => some (.ok (if n < 5 then [1] else [2], [3]))
    | .sign .. => some (.ok (if n < 7 then [1] else [2]))

def reads (e : ClaimEvent String) : Bool :=
  match e.exch with
  | ⟨.run (.remintSign _) _, (i, _)⟩ => i.nowMs.positive
  | _ => true

def judge : System.Judge (goodClock textLib) where
  may _ _ := true
  ok _ e := reads e
  may_iff _ _ _ := trivial
  ok_iff _ e h := by
    obtain ⟨t, op, ans, fate⟩ := e
    cases op with
    | run l g =>
      cases l with
      | remintSign m => exact h
      | _ => trivial
    | await o => trivial

def anyJudge : System.Judge (anyCalls textLib) where
  may _ _ := true
  ok _ _ := true
  may_iff _ _ _ := trivial
  ok_iff _ _ _ := trivial

def empty : Store String := .hydrated none []

theorem fresh_empty : Fresh textLib empty := ⟨none, [], rfl, rfl⟩

end Example

open Example in
/-- A claim is persisted and re-minted. -/
theorem shape_kept_reminted :
    ∃ s, ((claims textLib).lts (goodClock textLib)).Reachable s ∧
      s.mem.table.map (fun p => (p.1, p.2.generation)) = [("inbox:a", some (.fin 2))] ∧
      ShapeKept textLib s.mem := by
  obtain ⟨s, hr, hs⟩ := System.reachable_of_play (S := claims textLib) judge (smooth 2000)
    [.call (.persist (claim "inbox:a" 1 "k1" "s1")), .go 0 2, .call (remint "inbox:a" 1),
    .go 1 6] (m := empty)
    (P := fun s => s.mem.table.map (fun p => (p.1, p.2.generation)) = [("inbox:a", some (.fin 2))])
    fresh_empty
    (by decide +kernel)
  exact ⟨s, hr, of_decide_eq_true hs, shape_kept lawful s hr⟩

open Example in
/-- The clock reads 0: the re-minted claim is in memory, but what is written does
not hydrate to it. -/
theorem clock_zero :
    ∃ s, ((claims textLib).lts (anyCalls textLib)).Reachable s ∧
      s.mem.table.map (fun p => (p.1, p.2.generation)) = [("inbox:a", some (.fin 2))] ∧
      hydrate textLib s.mem.stored = .ok [] ∧
      hydrate textLib (some (tableJson textLib s.mem.table)) = .ok [] ∧
      ¬ ShapeKept textLib s.mem := by
  obtain ⟨s, hr, hs⟩ := System.reachable_of_play (S := claims textLib) anyJudge (smooth 0)
    [.call (.persist (claim "inbox:a" 1 "k1" "s1")), .go 0 2, .call (remint "inbox:a" 1),
    .go 1 6] (m := empty)
    (P := fun s => s.mem.table.map (fun p => (p.1, p.2.generation)) =
    [("inbox:a", some (.fin 2))] &&
      hydrate textLib s.mem.stored = .ok [] &&
        hydrate textLib (some (tableJson textLib s.mem.table)) = .ok []) fresh_empty
    (by decide +kernel)
  rw [Bool.and_eq_true, Bool.and_eq_true, decide_eq_true_iff, decide_eq_true_iff,
    decide_eq_true_iff] at hs
  obtain ⟨⟨htable, hstored⟩, hwritten⟩ := hs
  refine ⟨s, hr, htable, hstored, hwritten, fun h => ?_⟩
  have hempty := h.roundTrip.symm.trans hwritten
  rw [Except.ok.injEq] at hempty
  rw [hempty] at htable
  cases htable

end RezSdk.L4.ClaimCalls
