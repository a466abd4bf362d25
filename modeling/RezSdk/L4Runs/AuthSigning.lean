import RezSdk.Core.Script
import RezSdk.L3Service.AuthStateMachine

/-!
# Signing only for a verified node

* `careful`: in every run a machine signs, and sends its signature, only after
  it has validated a challenge and verified its self-signature over what is
  signed back and over its own identity; a claimant's frames carry no account
  identity and no device id; and with enforcement on, an account-mode machine
  sends something to a pinned node only if the highest contract version ever
  recorded for it was below 5 when it began.
-/
namespace RezSdk.L4.AuthSigning

open RezSdk.L1 RezSdk.L3.Auth

abbrev AuthEvent := Event auth (ObjFate ℚ outside)

variable {lib : Lib} {start : FloorStore}

/-! ## The property -/

/-- The contract version that the event records for the key. -/
def observed (key : String) (e : AuthEvent) : Option ℚ :=
  match Script.ran e with
  | some (.record relayIdentityB64 contractVersion) =>
    if trim relayIdentityB64 = trim key ∧ (trim key).isEmpty = false
      then FloorStore.version contractVersion else none
  | _ => none

/-- The highest contract version ever recorded for the key. -/
def highest (start : FloorStore) (key : String) : List AuthEvent → Option ℚ
  | [] => start.floorFor key
  | e :: older => match observed key e with
    | some v => some (((highest start key older).map (max v)).getD v)
    | none => highest start key older

/-- The client's identity, as a node names it. -/
def identityOf : Mode → Payload
  | .account i =>
    [("accountIdentityPublicKeyB64", .str i.publicKeyB64), ("sessionDeviceId", .str i.deviceId)]
  | .claimant i => [("claimantPublicKeyB64", .str i.claimantPublicKeyB64)]

/-- Every field that is signed back, and the client's identity, is covered by
the self-signature of the challenge. -/
structure Covers (mode : Mode) (challengePayload authPayload : Payload) : Prop where
  signedBack : ∀ field ∈ authPayload, field.1 = "kind" ∨ field ∈ challengePayload ∨
    field.1 = "publicKeyB64" ∧ ("accountIdentityPublicKeyB64", field.2) ∈ challengePayload ∨
    field.1 = "deviceId" ∧ ("sessionDeviceId", field.2) ∈ challengePayload
  identity : ∀ field ∈ identityOf mode, field ∈ challengePayload

/-- The challenge is acceptable at this time. -/
structure Valid (lib : Lib) (m : Machine) (ch : Challenge) (nowMs : ℚ) : Prop where
  binding : lib.validateRelayIdentityBinding ch.relayKeyId ch.nodeKeyId ch.nodePublicKeyB64 = .ok ()
  unexpired : ¬ ch.expiresAtMs < nowMs
  pinned : m.expectedNodePublicKeyB64 ≠ "" → ch.nodePublicKeyB64 = m.expectedNodePublicKeyB64

/-- Call `t` has validated the challenge that was sent to it. -/
def Validated (lib : Lib) (log : List AuthEvent) (t : Nat) (m : Machine) (ch : Challenge) : Prop :=
  ∃ e ∈ log, e.tid = t ∧ ∃ r g nowMs store, e.exch = ⟨.run (.validate m r) g, (nowMs, store)⟩ ∧
    parseAndValidateChallenge lib m r nowMs = .ok ch ∧ Valid lib m ch nowMs

/-- The self-signature of the challenge was found to be good. -/
def Verified (lib : Lib) (log : List AuthEvent) (t : Nat) (m : Machine) (ch : Challenge) : Prop :=
  ∃ e ∈ log, e.tid = t ∧ e.exch =
  ⟨.await (.verify ch.nodePublicKeyB64 ch.signatureB64 ((m.flow lib).challengePayload ch)), true⟩

def Signed (lib : Lib) (log : List AuthEvent) (t : Nat) (m : Machine) (ch : Challenge)
    (signatureB64 : String) : Prop :=
  ∃ e ∈ log, e.tid = t ∧ ∃ key, (m.flow lib).privateKeyB64 = .ok key ∧
    e.exch = ⟨.await (.sign key ((m.flow lib).authPayload ch)), .ok signatureB64⟩

structure Checked (lib : Lib) (log : List AuthEvent) (t : Nat) (m : Machine) (ch : Challenge) :
    Prop where
  validated : Validated lib log t m ch
  verified : Verified lib log t m ch

/-- Nothing in the frame names the account or a device. -/
def Anonymous (frame : Frame) : Prop :=
  ∀ field ∈ frame.body, field.1 ∉ ["accountIdentityPublicKeyB64", "publicKeyB64",
  "deviceId", "sessionDeviceId", "signerPublicKeyB64", "certChain"]

/-- When call `t` began, nothing above 4 had ever been recorded for the key. -/
def BeganBelow (start : FloorStore) (log : List AuthEvent) (t : Nat) (m : Machine) (key : String) :
    Prop :=
  ∃ newer e older, log = newer ++ e :: older ∧ e.tid = t ∧ Script.ran e = some (.begin m) ∧
  ∀ floor, highest start key older = some floor → floor < 5

/-- The call is an attempt of this machine. -/
def Runs (lib : Lib) (c : Call) (m : Machine) : Prop :=
  ∃ o, c = .authenticate o ∧ construct lib o = .ok m

/-- An attempt of the machine sends, verifies or signs now. -/
def Asks (lib : Lib) (s : AuthState) (t : Nat) (m : Machine) (o : Outside) : Prop :=
  ∃ c k, s.threads[t]? = some ⟨c, .ask (.await o) k⟩ ∧ Runs lib c m

structure Careful (lib : Lib) (start : FloorStore) (s : AuthState) : Prop where
  signs : ∀ t m key payload, Asks lib s t m (.sign key payload) →
    ∃ ch, payload = (m.flow lib).authPayload ch ∧ Checked lib s.log t m ch ∧
    Covers m.mode ((m.flow lib).challengePayload ch) payload
  sends : ∀ t m frame, Asks lib s t m (.send frame) → frame = helloFrame lib m ∨
    ∃ ch signatureB64, frame = authFrame lib m ch signatureB64 ∧ Checked lib s.log t m ch ∧
    Signed lib s.log t m ch signatureB64
  anonymous : ∀ t m i frame, m.mode = .claimant i → Asks lib s t m (.send frame) → Anonymous frame
  refused : ∀ t m i frame, m.mode = .account i → m.relayContractFloor = some true →
    m.expectedNodePublicKeyB64 ≠ "" →
    Asks lib s t m (.send frame) → BeganBelow start s.log t m m.expectedNodePublicKeyB64
  floor : ∀ key, s.mem.floorFor key = highest start key s.log

/-! ## The floor store -/

section

variable {s : FloorStore}

theorem trim_trim (x : String) : trim (trim x) = trim x := by
  cases h : (trim x).isEmpty with
  | false => exact trim_of_isId (isId_trim h)
  | true =>
    rw [String.isEmpty_iff.mp h]
    rfl

theorem read_write {key : String} {v : ℚ} (hint : v.den = 1) (hpos : 0 < v) (key' : String) :
    (s.write key v).read key' = if key = key' then some v else s.read key' := by
  unfold FloorStore.read FloorStore.write
  dsimp only
  rw [OMap.get_set]
  by_cases hkey : key = key'
  · rw [if_pos hkey, if_pos hkey]
    simp [hint, hpos]
  · rw [if_neg hkey, if_neg hkey]

theorem version_some {v : JsNumber} {q : ℚ} (h : FloorStore.version v = some q) :
    q.den = 1 ∧ 0 < q := by
  cases v with
  | fin q' =>
    change (if q'.den = 1 ∧ 0 < q' then some q' else none) = some q at h
    split at h
    · cases h
      assumption
    · cases h
  | _ => cases h

theorem read_den {key : String} {q : ℚ} (h : s.read key = some q) : q.den = 1 := by
  unfold FloorStore.read at h
  split at h
  · split at h
    · rename_i hcond
      cases h
      rw [Bool.and_eq_true, decide_eq_true_iff] at hcond
      exact hcond.1
    · cases h
  · cases h

theorem read_recordObserved {k : String} {v : JsNumber} (key : String) :
    (s.recordObserved k v).2.read key =
      match (if trim k = key ∧ key.isEmpty = false then FloorStore.version v else none) with
      | some q => some (((s.read key).map (max q)).getD q)
      | none => s.read key := by
  unfold FloorStore.recordObserved
  dsimp only
  split
  · -- nothing is recorded for a blank key
    rename_i hempty
    rw [if_neg]
    rintro ⟨rfl, hne⟩
    rw [hempty] at hne
    cases hne
  · rename_i hne
    cases hv : FloorStore.version v with
    | none =>
      dsimp only
      rw [ite_self]
    | some q =>
      obtain ⟨hint, hpos⟩ := version_some hv
      dsimp only
      by_cases hkey : trim k = key
      · subst hkey
        rw [if_pos ⟨rfl, Bool.eq_false_iff.mpr hne⟩]
        cases hr : s.read (trim k) with
        | none =>
          dsimp only
          rw [read_write hint hpos, if_pos rfl]
          rfl
        | some existing =>
          have hden := read_den hr
          dsimp only [Option.map_some, Option.getD_some]
          split
          · have hmax : (max existing q).den = 1 := by
              rcases max_choice existing q with h | h
              · rw [h]
                exact hden
              · rw [h]
                exact hint
            rw [read_write hmax (lt_of_lt_of_le hpos (le_max_right _ _)), if_pos rfl, max_comm]
          · rename_i hle
            rw [hr, max_comm, max_eq_left]
            by_contra hlt
            exact hle (lt_max_of_lt_right (not_le.mp hlt))
      · rw [if_neg fun h => hkey h.1]
        cases s.read (trim k) with
        | none =>
          dsimp only
          rw [read_write hint hpos, if_neg hkey]
        | some existing =>
          dsimp only
          split
          · rename_i hlt
            have hmax : max existing q = q :=
              max_eq_right (le_of_lt ((lt_max_iff.mp hlt).resolve_left (lt_irrefl _)))
            rw [hmax, read_write hint hpos, if_neg hkey]
          · rfl

end

/-! ## Where a call stands -/

-- otherwise it is unfolded whenever two stretches are compared
attribute [local irreducible] FloorStore.recordObserved

inductive Watch
  | idle (c : Call)
  | begun (m : Machine)
  | answered (m : Machine) (r : Option Json)
  | challenged (m : Machine) (ch : Challenge)
  | verified (m : Machine) (ch : Challenge)
  | signed (m : Machine) (ch : Challenge) (signatureB64 : String)
  | ready (m : Machine) (ch : Challenge)
  | ended

def Legal (lib : Lib) : Watch → Stretch → Prop
  | .idle (.authenticate o), .begin m => construct lib o = .ok m
  | .idle (.record k v), .record k' v' => k' = k ∧ v' = v
  | .answered m r, .validate m' r' => m' = m ∧ r' = r
  | .ready m ch, .record k v => k = ch.nodePublicKeyB64 ∧ v = (m.flow lib).contractVersion
  | _, _ => False

def follow (lib : Lib) (nowMs : ℚ) (s : FloorStore) : Stretch → Watch
  | .begin m => match refusal lib m s with
    | .ok () => .begun m
    | .error _ => .ended
  | .validate m r => match parseAndValidateChallenge lib m r nowMs with
    | .ok ch => .challenged m ch
    | .error _ => .ended
  | .record .. => .ended

def script (lib : Lib) : Script FloorStore ℚ Stretch outside Watch where
  apply l _ s := l.apply s
  legal := Legal lib
  follow _ nowMs s l := follow lib nowMs s l
  asks
    | .begun m, .send frame => frame = helloFrame lib m
    | .challenged m ch, .verify publicKeyB64 signatureB64 payload =>
      publicKeyB64 = ch.nodePublicKeyB64 ∧ signatureB64 = ch.signatureB64 ∧
        payload = (m.flow lib).challengePayload ch
    | .verified m ch, .sign key payload =>
      (m.flow lib).privateKeyB64 = .ok key ∧ payload = (m.flow lib).authPayload ch
    | .signed m ch signatureB64, .send frame => frame = authFrame lib m ch signatureB64
    | _, _ => False
  hears
    | .begun m, .send _, .ok r => .answered m r
    | .challenged m ch, .verify .., true => .verified m ch
    | .verified m ch, .sign .., .ok signatureB64 => .signed m ch signatureB64
    | .signed m ch _, .send _, .ok _ => .ready m ch
    | _, _, _ => .ended

abbrev watch (lib : Lib) : AuthState → Nat → Option Watch := (script lib).view .idle

abbrev Conforms (lib : Lib) : AuthState → Prop :=
  System.Conforms (script lib).monitor (fun _ => True) .idle fun _ _ _ => True

section

variable {α : Type} {Q : Watch → Except Err α → Prop}

theorem obeys_send {w : Watch} {frame : Frame} {f : Option Json → Authing α}
    (hasks : (script lib).asks w (.send frame)) (herror : ∀ w err, Q w (.error err))
    (hok :
        ∀ r,
          Obeys (script lib).monitor (fun _ => True) Q ((script lib).hears w (.send frame) (.ok r))
            (f r)) :
    Obeys (script lib).monitor (fun _ => True) Q w
      ((.ask (.await (.send frame)) .ret : Authing (Option Json)) >>= f : Authing α) := by
  refine obeys_js_bind ⟨hasks, fun r _ => ?_⟩
  match r with
  | .ok r => exact hok r
  | .error err => exact herror _ err

theorem obeys_validate {m : Machine} {r : Option Json} {f : Challenge → Authing α}
    (herror : ∀ w err, Q w (.error err))
    (hok : ∀ ch, Obeys (script lib).monitor (fun _ => True) Q (.challenged m ch) (f ch)) :
    Obeys (script lib).monitor (fun _ => True) Q (.answered m r) (stretch (.validate m r)
         (fun nowMs s => (parseAndValidateChallenge lib m r nowMs, s)) >>= f : Authing α) := by
  refine obeys_js_bind ⟨⟨rfl, rfl, rfl⟩, fun x _ => ?_⟩
  change Goes _ _ _ _ (match parseAndValidateChallenge lib m r x.1 with
    | .ok ch => Watch.challenged m ch
    | .error _ => Watch.ended) (parseAndValidateChallenge lib m r x.1)
  match parseAndValidateChallenge lib m r x.1 with
  | .ok ch => exact hok ch
  | .error err => exact herror _ err

theorem obeys_verify {m : Machine} {ch : Challenge} {f : Bool → Authing α}
    (htrue : Obeys (script lib).monitor (fun _ => True) Q (.verified m ch) (f true))
    (hfalse : Obeys (script lib).monitor (fun _ => True) Q .ended (f false)) :
    Obeys (script lib).monitor (fun _ => True) Q (.challenged m ch) ((.ask (.await
                 (.verify ch.nodePublicKeyB64 ch.signatureB64 ((m.flow lib).challengePayload ch)))
             fun b => .ret (.ok b) : Authing Bool) >>= f : Authing α) := by
  refine obeys_js_bind ⟨⟨rfl, rfl, rfl⟩, fun b _ => ?_⟩
  match b with
  | true => exact htrue
  | false => exact hfalse

theorem obeys_sign {m : Machine} {ch : Challenge} {key : String} {f : String → Authing α}
    (hkey : (m.flow lib).privateKeyB64 = .ok key) (herror : ∀ w err, Q w (.error err))
    (hok : ∀ signatureB64,
        Obeys (script lib).monitor (fun _ => True) Q (.signed m ch signatureB64) (f signatureB64)) :
    Obeys (script lib).monitor (fun _ => True) Q (.verified m ch)
      ((.ask (.await (.sign key ((m.flow lib).authPayload ch))) .ret : Authing String) >>= f :
          Authing α) := by
  refine obeys_js_bind ⟨⟨hkey, rfl⟩, fun r _ => ?_⟩
  match r with
  | .ok signatureB64 => exact hok signatureB64
  | .error err => exact herror _ err

theorem obeys_recordContractFloor {m : Machine} {ch : Challenge} {f : Unit → Authing α}
    (herror : ∀ w err, Q w (.error err))
    (hok : ∀ w, Obeys (script lib).monitor (fun _ => True) Q w (f ())) :
    Obeys (script lib).monitor (fun _ => True) Q (.ready m ch) (recordContractFloor m
         ch.nodePublicKeyB64 (m.flow lib).contractVersion >>= f : Authing α) := by
  refine obeys_js_bind ?_
  unfold recordContractFloor
  cases m.relayContractFloor.isSome with
  | false => exact hok _
  | true =>
    refine ⟨⟨rfl, rfl, rfl⟩, fun x _ => ?_⟩
    change Goes _ _ _ _ _ (x.2.recordObserved ch.nodePublicKeyB64 (m.flow lib).contractVersion).1
    match (x.2.recordObserved ch.nodePublicKeyB64 (m.flow lib).contractVersion).1 with
    | .ok () => exact hok _
    | .error err => exact herror _ err

end

theorem obeys_handshake {m : Machine} {Q : Watch → Except Err SessionInfo → Prop}
    (hQ : ∀ w x, Q w x) :
    Obeys (script lib).monitor (fun _ => True) Q (.begun m) (handshake lib m) := by
  have herror (w : Watch) (err : Err) : Q w (.error err) := hQ w (.error err)
  unfold handshake
  refine obeys_send rfl herror fun r => ?_
  refine obeys_validate herror fun ch => ?_
  refine obeys_verify ?_ (herror _ _)
  refine obeys_js_bind ?_
  cases hkey : (m.flow lib).privateKeyB64 with
  | error err => exact herror _ err
  | ok key =>
    refine obeys_sign hkey herror fun signatureB64 => ?_
    refine obeys_send rfl herror fun ready => ?_
    change Obeys (script lib).monitor _ Q (.ready m ch) (if _ then _ else _)
    cases (!m.responseType.isEmpty && lib.text (Json.prop "t" ready) != m.responseType) with
    | true => exact herror _ _
    | false => exact obeys_recordContractFloor herror fun w => hQ w _

theorem obeys_begin {α : Type} {Q : Watch → Except Err α → Prop} {o : Options} {m : Machine}
    {f : Unit → Authing α} (hm : construct lib o = .ok m)
    (hok : Obeys (script lib).monitor (fun _ => True) Q (.begun m) (f ()))
    (herror : ∀ err, Q .ended (.error err)) :
    Obeys (script lib).monitor (fun _ => True) Q (.idle (.authenticate o))
      (stretch (.begin m) (fun _ s => (refusal lib m s, s)) >>= f : Authing α) := by
  refine obeys_js_bind ⟨⟨rfl, hm⟩, fun x _ => ?_⟩
  change Goes _ _ _ _ (match refusal lib m x.2 with
    | .ok () => Watch.begun m
    | .error _ => Watch.ended) (refusal lib m x.2)
  match refusal lib m x.2 with
  | .error err => exact herror err
  | .ok () => exact hok

theorem obeys_authenticate {Q : Watch → Except Err SessionInfo → Prop} {o : Options} {m : Machine}
    (hm : construct lib o = .ok m) (hQ : ∀ w x, Q w x) :
    Obeys (script lib).monitor (fun _ => True) Q (.idle (.authenticate o))
      (authenticate lib m) := by
  unfold authenticate
  refine obeys_begin hm (obeys_attempt (obeys_handshake fun w y => ?_)) fun err => hQ _ _
  cases y with
  | ok info => exact hQ _ _
  | error err => exact hQ _ _

theorem obeys_run (c : Call) :
    Obeys (script lib).monitor (fun _ => True) (fun _ _ => True) (.idle c) (run lib c) := by
  cases c with
  | authenticate o =>
    refine obeys_js_bind ?_
    cases hm : construct lib o with
    | error err => trivial
    | ok m =>
      refine obeys_js_bind (obeys_authenticate hm fun w y => ?_)
      cases y with
      | ok info => trivial
      | error err => trivial
  | record k v =>
    refine obeys_js_bind ⟨⟨rfl, rfl, rfl⟩, fun x _ => ?_⟩
    change Goes _ _ _ _ _ (x.2.recordObserved k v).1
    match (x.2.recordObserved k v).1 with
    | .ok () => trivial
    | .error err => trivial

/-! ## What is checked -/

theorem parse_valid {m : Machine} {r : Option Json} {nowMs : ℚ} {ch : Challenge}
    (h : parseAndValidateChallenge lib m r nowMs = .ok ch) : Valid lib m ch nowMs := by
  unfold parseAndValidateChallenge at h
  dsimp only at h
  split at h
  · cases h
  · split at h
    · split at h
      · cases h
      · split at h
        · cases h
        · rename_i hbinding
          split at h
          · cases h
          · rename_i hunexpired
            split at h
            · cases h
            · rename_i hpinned
              cases h
              refine ⟨hbinding, hunexpired, fun hne => ?_⟩
              by_contra hother
              refine hpinned ?_
              rw [Bool.and_eq_true, Bool.not_eq_true', bne_iff_ne]
              exact ⟨Bool.eq_false_iff.mpr fun hempty => hne (String.isEmpty_iff.mp hempty),
                Ne.symm hother⟩
    · cases h

theorem floorFor_trim (s : FloorStore) (key : String) : s.floorFor (trim key) = s.floorFor key := by
  unfold FloorStore.floorFor
  rw [trim_trim]

theorem refusal_floor {m : Machine} {s : FloorStore} {i : AccountIdentity}
    (h : refusal lib m s = .ok ()) (hmode : m.mode = .account i)
    (henforce : m.relayContractFloor = some true) (hpinned : m.expectedNodePublicKeyB64 ≠ "")
    (floor : ℚ) (hfloor : s.floorFor m.expectedNodePublicKeyB64 = some floor) : floor < 5 := by
  unfold refusal at h
  rw [hmode, henforce] at h
  dsimp only at h
  rw [if_neg fun hempty => hpinned (String.isEmpty_iff.mp hempty)] at h
  by_contra hge
  have hrefused : ∃ reason, permitsAccountModeAuth lib m.expectedNodePublicKeyB64 s true =
      .error reason := by
    unfold permitsAccountModeAuth
    dsimp only
    split
    · -- a blank key has no floor
      rename_i hempty
      unfold FloorStore.floorFor at hfloor
      rw [if_pos hempty] at hfloor
      cases hfloor
    · rw [floorFor_trim, hfloor]
      dsimp only
      rw [if_neg hge]
      exact ⟨_, rfl⟩
  obtain ⟨reason, hreason⟩ := hrefused
  rw [hreason] at h
  cases h

theorem covers (m : Machine) (ch : Challenge) :
    Covers m.mode ((m.flow lib).challengePayload ch) ((m.flow lib).authPayload ch) := by
  unfold Machine.flow
  cases m.mode with
  | account i =>
    refine ⟨fun field hfield => ?_, fun field hfield => ?_⟩
    · simp only [accountFlow, List.cons_append, List.mem_cons, List.mem_append,
        List.not_mem_nil, or_false] at hfield ⊢
      rcases hfield with rfl | hfield | rfl | rfl
      · exact .inl rfl
      · exact .inr (.inl (.inr (.inl (.inl hfield))))
      · exact .inr (.inr (.inl ⟨rfl, .inr (.inr (.inl rfl))⟩))
      · exact .inr (.inr (.inr ⟨rfl, .inr (.inr (.inr rfl))⟩))
    · exact .tail _ (List.mem_append_right _ hfield)
  | claimant i =>
    refine ⟨fun field hfield => ?_, fun field hfield => ?_⟩
    · simp only [claimantFlow, List.cons_append, List.mem_cons, List.mem_append,
        List.not_mem_nil, or_false] at hfield ⊢
      rcases hfield with rfl | hfield | rfl
      · exact .inl rfl
      · exact .inr (.inl (.inr (.inl (.inl hfield))))
      · exact .inr (.inl (.inr (.inr rfl)))
    · exact .tail _ (List.mem_append_right _ hfield)

theorem anonymous_hello {m : Machine} {i : ClaimantIdentity} (h : m.mode = .claimant i) :
    Anonymous (helloFrame lib m) := by
  unfold Anonymous helloFrame Machine.flow
  rw [h]
  simp [claimantFlow]

theorem anonymous_auth {m : Machine} {i : ClaimantIdentity} (h : m.mode = .claimant i)
    (ch : Challenge) (signatureB64 : String) : Anonymous (authFrame lib m ch signatureB64) := by
  unfold Anonymous authFrame Machine.flow
  rw [h]
  simp [claimantFlow]

/-! ## Every run -/

/-- What an account-mode machine knows of the floor when it has begun. -/
def Began (start : FloorStore) (log : List AuthEvent) (t : Nat) (m : Machine) : Prop :=
  ∀ i, m.mode = .account i → m.relayContractFloor = some true → m.expectedNodePublicKeyB64 ≠ "" →
    BeganBelow start log t m m.expectedNodePublicKeyB64

/-- What is known of call `t`. -/
def Standing (lib : Lib) (start : FloorStore) (log : List AuthEvent) (t : Nat) (c : Call) :
    Watch → Prop
  | .idle c' => c' = c
  | .begun m => Runs lib c m ∧ Began start log t m
  | .answered m _ => Runs lib c m ∧ Began start log t m
  | .challenged m ch => Runs lib c m ∧ Began start log t m ∧ Validated lib log t m ch
  | .verified m ch => Runs lib c m ∧ Began start log t m ∧ Checked lib log t m ch
  | .signed m ch signatureB64 =>
    Runs lib c m ∧ Began start log t m ∧ Checked lib log t m ch ∧ Signed lib log t m ch signatureB64
  | .ready _ _ => True
  | .ended => True

section

variable {log : List AuthEvent} {e : AuthEvent} {t : Nat} {m : Machine} {ch : Challenge}

theorem Validated.cons (h : Validated lib log t m ch) : Validated lib (e :: log) t m ch := by
  obtain ⟨e', he', hrest⟩ := h
  exact ⟨e', .tail _ he', hrest⟩

theorem Checked.cons (h : Checked lib log t m ch) : Checked lib (e :: log) t m ch := by
  obtain ⟨e', he', hrest⟩ := h.verified
  exact ⟨h.validated.cons, e', .tail _ he', hrest⟩

theorem Signed.cons {signatureB64 : String} (h : Signed lib log t m ch signatureB64) :
    Signed lib (e :: log) t m ch signatureB64 := by
  obtain ⟨e', he', hrest⟩ := h
  exact ⟨e', .tail _ he', hrest⟩

theorem Began.cons (h : Began start log t m) : Began start (e :: log) t m := by
  intro i hmode henforce hpinned
  obtain ⟨newer, e', older, hlog, hrest⟩ := h i hmode henforce hpinned
  exact ⟨e :: newer, e', older, by rw [hlog]; rfl, hrest⟩

theorem Standing.cons {c : Call} {w : Watch} (h : Standing lib start log t c w) :
    Standing lib start (e :: log) t c w := by
  cases w with
  | idle c' => exact h
  | begun m => exact ⟨h.1, h.2.cons⟩
  | answered m r => exact ⟨h.1, h.2.cons⟩
  | challenged m ch => exact ⟨h.1, h.2.1.cons, h.2.2.cons⟩
  | verified m ch => exact ⟨h.1, h.2.1.cons, h.2.2.cons⟩
  | signed m ch signatureB64 => exact ⟨h.1, h.2.1.cons, h.2.2.1.cons, h.2.2.2.cons⟩
  | ready m ch => trivial
  | ended => trivial

end

structure Inv (lib : Lib) (start : FloorStore) (s : AuthState) : Prop where
  conforms : Conforms lib s
  floor : ∀ key, s.mem.floorFor key = highest start key s.log
  standing : ∀ (t : Nat) (th : Thread auth Call (Except Err Result)) (w : Watch), s.threads[t]? =
    some th → watch lib s t = some w →
    Standing lib start s.log t th.call w

section

variable {s s' : AuthState} {e : AuthEvent} {c : Call}
  {k : auth.Ans e.op → Proc auth (Except Err Result)}

theorem highest_other {key : String} {log : List AuthEvent}
    (h : ∀ k v, Script.ran e ≠ some (.record k v)) :
    highest start key (e :: log) = highest start key log := by
  have hnone : observed key e = none := by
    unfold observed
    split
    · exact absurd ‹_› (h _ _)
    · rfl
  conv_lhs => unfold highest
  rw [hnone]

/-- The floor is the highest version recorded. -/
theorem floorFor_apply (hfloor : ∀ key, s.mem.floorFor key = highest start key s.log) {l : Stretch}
    (hran : Script.ran e = some l) (key : String) :
    (l.apply s.mem).floorFor key = highest start key (e :: s.log) := by
  cases l with
  | begin m =>
    rw [highest_other fun k v h => by cases hran.symm.trans h]
    exact hfloor key
  | validate m r =>
    rw [highest_other fun k v h => by cases hran.symm.trans h]
    exact hfloor key
  | record k v =>
    have hobserved : observed key e = if trim k = trim key ∧
        (trim key).isEmpty = false then FloorStore.version v else none := by
      unfold observed
      rw [hran]
    conv_rhs => unfold highest
    rw [hobserved, ← hfloor key]
    change (s.mem.recordObserved k v).2.floorFor key = _
    unfold FloorStore.floorFor
    dsimp only
    cases hempty : (trim key).isEmpty with
    | true =>
      rw [if_pos rfl, if_neg (by rintro ⟨-, h⟩; cases h)]
      rfl
    | false =>
      simp only [Bool.false_eq_true, if_false, read_recordObserved, hempty]

theorem follow_standing (h : Inv lib start s) {l : Stretch} {nowMs : ℚ} {a : Watch}
    (exch : e.exch = ⟨.run l ((script lib).apply l), (nowMs, s.mem)⟩) (hlegal : Legal lib a l)
    (hstand : Standing lib start s.log e.tid c a) :
    Standing lib start (e :: s.log) e.tid c (follow lib nowMs s.mem l) := by
  have hran := Script.ran_run exch
  cases l with
  | begin m =>
    unfold follow
    dsimp only
    split
    · rename_i hok
      cases a with
      | idle c' =>
        cases c' with
        | authenticate o =>
          have hc : Call.authenticate o = c := hstand
          refine ⟨⟨o, hc.symm, hlegal⟩,
            fun i hmode henforce hpinned => ⟨[], e, s.log, rfl, rfl, hran, fun floor hfloor => ?_⟩⟩
          rw [← h.floor] at hfloor
          exact refusal_floor hok hmode henforce hpinned floor hfloor
        | record k v => exact hlegal.elim
      | _ => exact hlegal.elim
    · trivial
  | validate m r =>
    unfold follow
    dsimp only
    split
    · rename_i ch hok
      cases a with
      | answered m' r' =>
        obtain ⟨rfl, rfl⟩ := hlegal
        exact ⟨hstand.1, hstand.2.cons, e, .head _, rfl, r, _, nowMs, s.mem,
          exch, hok, parse_valid hok⟩
      | idle c' => cases c' <;> exact hlegal.elim
      | _ => exact hlegal.elim
    · trivial
  | record key v => trivial

theorem hears_standing {o : Outside} {r : o.Ans} {a : Watch} (exch : e.exch = ⟨.await o, r⟩)
    (hasks : (script lib).asks a o) (hstand : Standing lib start s.log e.tid c a) :
    Standing lib start (e :: s.log) e.tid c ((script lib).hears a o r) := by
  cases a with
  | begun m =>
    cases o with
    | send frame =>
      match r with
      | .ok r => exact ⟨hstand.1, hstand.2.cons⟩
      | .error err => trivial
    | _ => exact hasks.elim
  | challenged m ch =>
    cases o with
    | verify publicKeyB64 signatureB64 payload =>
      match r with
      | true =>
        obtain ⟨rfl, rfl, rfl⟩ := hasks
        exact ⟨hstand.1, hstand.2.1.cons, hstand.2.2.cons, e, .head _, rfl, exch⟩
      | false => trivial
    | _ => exact hasks.elim
  | verified m ch =>
    cases o with
    | sign key payload =>
      match r with
      | .ok signatureB64 =>
        obtain ⟨hkey, rfl⟩ := hasks
        exact ⟨hstand.1, hstand.2.1.cons, hstand.2.2.cons, e, .head _, rfl, key, hkey, exch⟩
      | .error err => trivial
    | _ => exact hasks.elim
  | signed m ch signatureB64 =>
    cases o with
    | send frame =>
      match r with
      | .ok r => trivial
      | .error err => trivial
    | _ => exact hasks.elim
  | _ => exact hasks.elim

theorem Inv.fires (h : Inv lib start s) (hf : Pool.Fires (machines lib) s e c k s') :
    Inv lib start s' := by
  have hconforms := System.conforms_fires h.conforms hf trivial
  have hstanding (hself : ∀ w, watch lib s' e.tid = some w →
      Standing lib start (e :: s.log) e.tid c w) (t : Nat)
      (th : Thread auth Call (Except Err Result)) (w : Watch) (hth : s'.threads[t]? = some th)
      (hw : watch lib s' t = some w) :
      Standing lib start s'.log t th.call w := by
    rw [hf.log]
    obtain ⟨p, hp⟩ := hf.called hth
    by_cases ht : e.tid = t
    · subst ht
      cases hf.thread.symm.trans hp
      exact hself w hw
    · have hw' : watch lib s t = some w := by
        rw [← hw]
        exact (System.view_other hf ht).symm
      exact (h.standing t ⟨th.call, p⟩ w hp hw').cons
  cases Script.turn h.conforms hf with
  | runs l nowMs a exch mem before legal after =>
    refine ⟨hconforms, fun key => ?_, hstanding fun w hw => ?_⟩
    · rw [hf.log, mem]
      exact floorFor_apply h.floor (Script.ran_run exch) key
    · cases after.symm.trans hw
      exact follow_standing h exch legal (h.standing e.tid _ a hf.thread before)
  | hears o r a exch allowed mem before asks after =>
    refine ⟨hconforms, fun key => ?_, hstanding fun w hw => ?_⟩
    · rw [hf.log, mem, highest_other fun k v hr => by cases (Script.ran_await exch).symm.trans hr]
      exact h.floor key
    · cases after.symm.trans hw
      exact hears_standing exch asks (h.standing e.tid _ a hf.thread before)

end

theorem inv_inductive (lib : Lib) (start : FloorStore) :
    ((machines lib).lts (fromStore start)).Inductive (Inv lib start) := by
  refine System.inductive_of (fun m hm => ?_) (fun s c h _ => ?_) fun s e c k s' h hf _ =>
    h.fires hf
  · cases hm
    refine ⟨System.conforms_init _, fun key => rfl, fun t th w hth => ?_⟩
    simp at hth
  · refine ⟨System.conforms_spawn h.conforms (obeys_run c), h.floor, fun t th w hth hw => ?_⟩
    rcases h.conforms.view_spawned hw with ⟨rfl, rfl⟩ | hold
    · unfold Pool.spawn at hth
      dsimp only at hth
      rw [List.getElem?_append_right (Nat.le_refl _), Nat.sub_self] at hth
      cases hth
      rfl
    · obtain ⟨th₀, hth₀, -⟩ := Option.map_eq_some_iff.mp hold
      cases (Pool.spawn_thread hth₀).symm.trans hth
      exact h.standing t th w hth₀ hold

/-- What a call that asks something has behind it. -/
theorem Inv.asks {s : AuthState} (h : Inv lib start s) {t : Nat} {m : Machine} {o : Outside}
    (ho : Asks lib s t m o) :
    ∃ c w, Runs lib c m ∧ (script lib).asks w o ∧ Standing lib start s.log t c w := by
  obtain ⟨c, k, ht, hruns⟩ := ho
  exact ⟨c, _, hruns, (h.conforms.obeys t _ ht).1, h.standing t _ _ ht (System.view_thread ht)⟩

theorem Runs.unique {c : Call} {m m' : Machine} (h : Runs lib c m) (h' : Runs lib c m') :
    m' = m := by
  obtain ⟨o, rfl, hm⟩ := h
  obtain ⟨o', ho, hm'⟩ := h'
  cases ho
  exact Except.ok.inj (hm'.symm.trans hm)

theorem Inv.sends {s : AuthState} (h : Inv lib start s) {t : Nat} {m : Machine} {frame : Frame}
    (ho : Asks lib s t m (.send frame)) :
    Began start s.log t m ∧
    (frame = helloFrame lib m ∨
      ∃ ch signatureB64, frame = authFrame lib m ch signatureB64 ∧ Checked lib s.log t m ch ∧
        Signed lib s.log t m ch signatureB64) := by
  obtain ⟨c, w, hruns, hasks, hstand⟩ := h.asks ho
  cases w with
  | begun m' =>
    obtain ⟨hm, hbegan⟩ := hstand
    cases hruns.unique hm
    exact ⟨hbegan, .inl hasks⟩
  | signed m' ch signatureB64 =>
    obtain ⟨hm, hbegan, hchecked, hsigned⟩ := hstand
    cases hruns.unique hm
    exact ⟨hbegan, .inr ⟨ch, signatureB64, hasks, hchecked, hsigned⟩⟩
  | _ => exact hasks.elim

/-- For every configuration, every transport and every history of the floor. -/
theorem careful (lib : Lib) (start : FloorStore) :
    ∀ s, ((machines lib).lts (fromStore start)).Reachable s → Careful lib start s := by
  intro s hr
  have h := (inv_inductive lib start).reachable s hr
  refine ⟨fun t m key payload ho => ?_, fun t m frame ho => (h.sends ho).2,
    fun t m i frame hmode ho => ?_,
    fun t m i frame hmode henforce hpinned ho => (h.sends ho).1 i hmode henforce hpinned, h.floor⟩
  · obtain ⟨c, w, hruns, hasks, hstand⟩ := h.asks ho
    cases w with
    | verified m' ch =>
      obtain ⟨hm, -, hchecked⟩ := hstand
      cases hruns.unique hm
      obtain ⟨-, rfl⟩ := hasks
      exact ⟨ch, rfl, hchecked, covers m ch⟩
    | _ => exact hasks.elim
  · rcases (h.sends ho).2 with rfl | ⟨ch, signatureB64, rfl, -⟩
    · exact anonymous_hello hmode
    · exact anonymous_auth hmode ch signatureB64

namespace Example

/-- Texts and numbers as they are, and any relay identity that names its node
key. -/
def core : Lib where
  text
    | some (.str s) => s
    | _ => ""
  number
    | some (.num n) => n
    | _ => .nan
  numText q := toString q.num
  validateRelayIdentityBinding relayKeyId nodeKeyId nodePublicKeyB64 :=
    if nodeKeyId = "node:" ++ nodePublicKeyB64 ∧ relayKeyId = "relay:" ++ nodePublicKeyB64
      then .ok () else .error "mismatch"
  contractVersion := .fin 4
  sessionHello := "session.hello"
  sessionReady := "session.ready"
  sessionChallenge := "session.challenge"
  sessionAuthenticate := "session.authenticate"

/-- A claimant without a pinned key, and an account with one, which enforces. -/
def claimant : Options :=
  ⟨none, some ⟨"claimant-key", "claimant-private"⟩, "", "", none, "", none, some false⟩
def account : Options := ⟨some ⟨"account-key", "account-private", "device-1", none, none⟩,
      none, "", "", none, "", some "K", some true⟩

def challenge : Json :=
  .obj [("t", .str "session.challenge"), ("body",
    .obj [("challengeId", .str "c1"), ("nonceB64", .str "n1"), ("nodeKeyId", .str "node:K"),
    ("nodePublicKeyB64", .str "K"), ("relayKeyId", .str "relay:K"),
    ("issuedAtMs", .num (.fin 1000)), ("expiresAtMs", .num (.fin 2000)),
    ("wsPath", .str "/ws"), ("signatureB64", .str "node-signature")])]

def ready : Json := .obj [("t", .str "session.ready"), ("body", .obj [])]

/-- The node answers as it should, and its signature is good. -/
def honest : Nat → auth.Op → ObjFate ℚ outside := fun _ _ =>
  { input := 1500
    answer := fun
      | .send frame => some (.ok (some (if frame.type = "session.hello" then challenge else ready)))
      | .verify _ signatureB64 _ => some (decide (signatureB64 = "node-signature"))
      | .sign privateKeyB64 _ => some (.ok ("signed with " ++ privateKeyB64)) }

def fresh : FloorStore := ⟨false, []⟩

def judge : System.Judge (fromStore fresh) where
  may _ _ := true
  ok _ _ := true
  may_iff _ _ _ := trivial
  ok_iff _ _ _ := trivial

/-- What became of call `t`. -/
def outcome (s : AuthState) (t : Nat) : Option (Except String String) :=
  match s.threads[t]? with
  | some ⟨_, .ret (.ok (.authenticated info))⟩ => some (.ok info.nodePublicKeyB64)
  | some ⟨_, .ret (.error err)⟩ => some (.error err.message)
  | _ => none

end Example

open Example in
/-- The account authenticates, then the claimant, and then the account is
refused without a frame. -/
theorem careful_refused :
    ∃ s, ((machines core).lts (fromStore fresh)).Reachable s ∧
      outcome s 0 = some (.ok "K") ∧ outcome s 1 = some (.ok "K") ∧
      outcome s 2 = some (.error
        ("account-mode auth refused before hello: relay previously authenticated at contract 5" ++
          "; account-mode auth toward it is a downgrade and enforcement is enabled")) ∧
      Careful core fresh s := by
  obtain ⟨s, hr, hs⟩ := System.reachable_of_play (S := machines core) judge honest
    [.call (.authenticate account), .go 0 7, .call (.authenticate claimant),
    .go 1 7, .call (.authenticate account), .go 2 1]
    (m := fresh) (P := fun s => decide (outcome s 0 = some (.ok "K") ∧
    outcome s 1 = some (.ok "K") ∧
      outcome s 2 = some (.error
        ("account-mode auth refused before hello: relay previously authenticated at contract 5" ++
        "; account-mode auth toward it is a downgrade and enforcement is enabled"))))
    rfl (by decide +kernel)
  obtain ⟨h0, h1, h2⟩ := of_decide_eq_true hs
  exact ⟨s, hr, h0, h1, h2, careful core fresh s hr⟩

end RezSdk.L4.AuthSigning
