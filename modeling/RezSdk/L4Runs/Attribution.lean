import RezSdk.L4Runs.TransferCalls

/-!
# Attribution of files

Sessions and buffers are kept under the transfer id alone, which the sender
chooses. A chunk is taken from whoever delivers it, and a manifest replaces a
session whoever has opened it.

* `attributed`: in every run where no manifest replaces a session of another
  origin and no chunk is taken from another origin than the manifest's, a file
  is reported as coming from an origin only if the manifest and all chunks
  were delivered by it, and no delivery changes a transfer of another origin.
* `misattributed`: the last chunk of a file comes from somebody else.
-/
namespace RezSdk.L4.Attribution

open RezSdk.L1 RezSdk.L3.FileTransfer RezSdk.L4.TransferCalls

variable {lib : Lib}

/-! ## The property -/

/-- Whose manifest has opened the transfer last. -/
def owner (x : String) : List TransferEvent → Option Origin
  | [] => none
  | e :: older => match Script.ran e with
    | some (.manifest m o) => if m.transferId = x then some o else owner x older
    | _ => owner x older

def Opened (log : List TransferEvent) (o : Origin) (m : Manifest) : Prop :=
  ∃ e ∈ log, Script.ran e = some (.manifest m o)

def Took (log : List TransferEvent) (o : Origin) (c : Chunk) : Prop :=
  ∃ e ∈ log, Script.ran e = some (.chunk c o)

/-- The manifest and what the bytes were put together from came from the
origin that is reported. -/
structure FromOrigin (lib : Lib) (older : List TransferEvent) (r : Report) : Prop where
  manifest : Opened older r.origin r.manifest
  transferId : r.manifest.transferId = r.transferId
  bytes : ∃ buffer : Option Buffer, lib.reassemble r.manifest buffer = .ok r.fileBytes ∧
    ∀ b c, buffer = some b → some c ∈ b → Took older r.origin c ∧ c.transferId = r.transferId

/-- The stretch changes the transfer, or reports it. -/
def Touches (x : String) (m m' : Fields) (l : Stretch) : Prop :=
  OMap.get x m'.sessions ≠ OMap.get x m.sessions ∨
    OMap.get x m'.chunkBuffers ≠ OMap.get x m.chunkBuffers ∨
    ∃ r, l = .report r ∧ r.transferId = x

/-- The call delivers what the stretch handles. -/
structure Delivers (lib : Lib) (c : Call) (l : Stretch) : Prop where
  origin : c.origin = l.origin
  manifest : ∀ m o, l = .manifest m o → c.payload.message lib = .ok (.manifest m)
  chunk : ∀ chunk o, l = .chunk chunk o → c.payload.message lib = .ok (.chunk chunk)

structure Attributed (lib : Lib) (s : TransferState) : Prop where
  delivered : ∀ e ∈ s.log, ∀ l, Script.ran e = some l → ∃ th, s.threads[e.tid]? = some th ∧
    Delivers lib th.call l
  reports : Always (fun e older => ∀ r, Script.ran e = some (.report r) →
    FromOrigin lib older r) s.log
  apart : Always (fun e older => ∀ l g i m, e.exch = ⟨.run l g, (i, m)⟩ →
    ∀ x, Touches x m (g i m) l →
    owner x older = none ∨ owner x older = some l.origin) s.log

def anySender : TransferRules where
  init s := s = .new
  may _ _ := True
  ok _ _ := True

/-- A manifest replaces only a session of its own origin, and a chunk is taken
only from the origin of the manifest. -/
def ownIds (lib : Lib) : TransferRules where
  init s := s = .new
  may _ _ := True
  ok s e := (∀ m o, Script.ran e = some (.manifest m o) → owner m.transferId s.log = none ∨
    owner m.transferId s.log = some o) ∧
    ∀ c o, Script.ran e = some (.chunk c o) → Expected lib s.mem c →
    owner c.transferId s.log = some o

/-! ## One event -/

section

variable {log : List TransferEvent} {e : TransferEvent} {o : Origin} {x : String}

theorem Opened.cons {m : Manifest} (h : Opened log o m) : Opened (e :: log) o m := by
  obtain ⟨e', he', hran⟩ := h
  exact ⟨e', .tail _ he', hran⟩

theorem Took.cons {c : Chunk} (h : Took log o c) : Took (e :: log) o c := by
  obtain ⟨e', he', hran⟩ := h
  exact ⟨e', .tail _ he', hran⟩

theorem FromOrigin.cons {r : Report} (h : FromOrigin lib log r) : FromOrigin lib (e :: log) r := by
  obtain ⟨buffer, hbytes, hfrom⟩ := h.bytes
  refine ⟨h.manifest.cons, h.transferId, buffer, hbytes, fun b c hb hc => ?_⟩
  obtain ⟨htook, hid⟩ := hfrom b c hb hc
  exact ⟨htook.cons, hid⟩

theorem owner_manifest {m : Manifest} (h : Script.ran e = some (.manifest m o)) :
    owner x (e :: log) = if m.transferId = x then some o else owner x log := by
  conv_lhs => unfold owner
  rw [h]

theorem owner_other (h : ∀ m o, Script.ran e ≠ some (.manifest m o)) :
    owner x (e :: log) = owner x log := by
  conv_lhs => unfold owner
  split
  · exact absurd ‹_› (h _ _)
  · rfl

/-- What is known of a call of `c`. -/
def Standing (lib : Lib) (log : List TransferEvent) (c : Call) : Watch → Prop
  | .idle c' => c' = c
  | .taken transferId updated o =>
    o = c.origin ∧ owner transferId log = some o ∧ Opened log o updated.manifest ∧
      updated.manifest.transferId = transferId
  | .whole r => r.origin = c.origin ∧ owner r.transferId log = some r.origin ∧ FromOrigin lib log r
  | .cleaned r =>
    r.origin = c.origin ∧ owner r.transferId log = some r.origin ∧ FromOrigin lib log r
  | _ => True

theorem Standing.cons {c : Call} {w : Watch} (h : Standing lib log c w)
    (hkeep : ∀ x o, owner x log = some o → owner x (e :: log) = some o) :
    Standing lib (e :: log) c w := by
  cases w with
  | idle c' => exact h
  | taken transferId updated o =>
    obtain ⟨horigin, howner, hopened, hid⟩ := h
    exact ⟨horigin, hkeep _ _ howner, hopened.cons, hid⟩
  | whole r =>
    obtain ⟨horigin, howner, hfrom⟩ := h
    exact ⟨horigin, hkeep _ _ howner, hfrom.cons⟩
  | cleaned r =>
    obtain ⟨horigin, howner, hfrom⟩ := h
    exact ⟨horigin, hkeep _ _ howner, hfrom.cons⟩
  | _ => trivial

/-- What is in the two maps came from the owner. -/
structure Owned (log : List TransferEvent) (m : Fields) : Prop where
  sessions : ∀ x session, OMap.get x m.sessions = some session →
    session.manifest.transferId = x ∧ ∃ o, owner x log = some o ∧ Opened log o session.manifest
  buffers : ∀ x b, OMap.get x m.chunkBuffers = some b → ∃ o, owner x log = some o ∧
    ∀ c, some c ∈ b → Took log o c ∧ c.transferId = x

theorem Owned.cons {m : Fields} (h : Owned log m)
    (hkeep : ∀ x o, owner x log = some o → owner x (e :: log) = some o) : Owned (e :: log) m := by
  refine ⟨fun x session hs => ?_, fun x b hb => ?_⟩
  · obtain ⟨hid, o, howner, hopened⟩ := h.sessions x session hs
    exact ⟨hid, o, hkeep x o howner, hopened.cons⟩
  · obtain ⟨o, howner, htook⟩ := h.buffers x b hb
    refine ⟨o, hkeep x o howner, fun c hc => ?_⟩
    obtain ⟨ht, hid⟩ := htook c hc
    exact ⟨ht.cons, hid⟩

/-- A session is replaced by one of the owner. -/
theorem Owned.setSession {m : Fields} {transferId : String} {session : Session} (h : Owned log m)
    (hid : session.manifest.transferId = transferId) (howner : owner transferId log = some o)
    (hopened : Opened log o session.manifest) :
    Owned log { m with sessions := OMap.set transferId session m.sessions } := by
  refine ⟨fun x session' hs => ?_, h.buffers⟩
  rw [OMap.get_set] at hs
  split at hs
  · cases hs
    subst_vars
    exact ⟨rfl, o, howner, hopened⟩
  · exact h.sessions x session' hs

theorem Owned.setBuffer {m : Fields} {transferId : String} {b : Buffer} (h : Owned log m)
    (howner : owner transferId log = some o)
    (htook : ∀ c, some c ∈ b → Took log o c ∧ c.transferId = transferId) :
    Owned log { m with chunkBuffers := OMap.set transferId b m.chunkBuffers } := by
  refine ⟨h.sessions, fun x b' hb => ?_⟩
  rw [OMap.get_set] at hb
  split at hb
  · cases hb
    subst_vars
    exact ⟨o, howner, htook⟩
  · exact h.buffers x b' hb

theorem Owned.deleteBuffer {m : Fields} {transferId : String} (h : Owned log m) :
    Owned log { m with chunkBuffers := OMap.delete transferId m.chunkBuffers } := by
  refine ⟨h.sessions, fun x b hb => ?_⟩
  rw [OMap.get_delete] at hb
  split at hb
  · cases hb
  · exact h.buffers x b hb

end

structure Inv (lib : Lib) (s : TransferState) : Prop where
  conforms : Conforms lib s
  attributed : Attributed lib s
  owned : Owned s.log s.mem
  standing : ∀ (t : Nat) (th : Thread service Call (Except Err Bool)) (w : Watch), s.threads[t]? =
    some th →
    watch lib s t = some w → Standing lib s.log th.call w

section

variable {s s' : TransferState} {e : TransferEvent} {c : Call}
  {k : service.Ans e.op → Proc service (Except Err Bool)}

/-- A transfer keeps its owner. -/
theorem owner_kept (hok : (ownIds lib).ok s e) (x : String) (o : Origin)
    (h : owner x s.log = some o) : owner x (e :: s.log) = some o := by
  by_cases hm : ∃ m o', Script.ran e = some (.manifest m o')
  · obtain ⟨m, o', hran⟩ := hm
    rw [owner_manifest hran]
    split
    · rename_i hx
      subst hx
      rcases hok.1 m o' hran with hnone | hsame
      · cases hnone.symm.trans h
      · exact hsame.symm.trans h
    · exact h
  · rw [owner_other fun m o' hran => hm ⟨m, o', hran⟩]
    exact h

/-- What a stretch leaves, and where its call stands then. -/
structure Stepped (lib : Lib) (s : TransferState) (e : TransferEvent) (c : Call)
    (a : Watch) (l : Stretch) : Prop where
  delivers : Delivers lib c l
  owned : Owned (e :: s.log) (l.apply lib s.mem)
  standing : Standing lib (e :: s.log) c (follow lib a s.mem l)
  reports : ∀ r, l = .report r → FromOrigin lib s.log r
  apart : ∀ x, Touches x s.mem (l.apply lib s.mem) l → owner x s.log = none ∨
    owner x s.log = some l.origin

theorem stepped_manifest (h : Inv lib s) (hok : (ownIds lib).ok s e) {c' : Call} {m : Manifest}
    {o : Origin} (hc : c' = c) (hran : Script.ran e = some (.manifest m o))
    (hlegal : Legal lib (.idle c') (.manifest m o)) :
    Stepped lib s e c (.idle c') (.manifest m o) := by
  subst hc
  obtain ⟨hmessage, rfl⟩ := hlegal
  have howner : owner m.transferId (e :: s.log) = some c'.origin := by
    rw [owner_manifest hran, if_pos rfl]
  refine ⟨⟨rfl, fun m' o' heq => ?_, nofun⟩, ?_, trivial, nofun, fun x htouch => ?_⟩
  · cases heq
    exact hmessage
  · have hold := h.owned.cons (owner_kept hok)
    have hopened : Opened (e :: s.log) c'.origin (Session.pending m).manifest := ⟨e, .head _, hran⟩
    have hsession := hold.setSession rfl howner hopened
    refine hsession.setBuffer howner fun c hc => ?_
    cases List.eq_of_mem_replicate hc
  · have hx : m.transferId = x := by
      by_contra hne
      rcases htouch with hne' | hne' | ⟨r, hr, -⟩
      · exact hne' (OMap.get_set_ne hne _ _)
      · exact hne' (OMap.get_set_ne hne _ _)
      · cases hr
    subst hx
    exact hok.1 m c'.origin hran

theorem stepped_chunk (h : Inv lib s) (hok : (ownIds lib).ok s e) {c' : Call} {chunk : Chunk}
    {o : Origin} (hc : c' = c) (hran : Script.ran e = some (.chunk chunk o))
    (hlegal : Legal lib (.idle c') (.chunk chunk o)) :
    Stepped lib s e c (.idle c') (.chunk chunk o) := by
  subst hc
  obtain ⟨hmessage, rfl⟩ := hlegal
  have hdelivers : Delivers lib c' (.chunk chunk c'.origin) := by
    refine ⟨rfl, fun _ _ heq => (by cases heq), fun chunk' o' heq => ?_⟩
    cases heq
    exact hmessage
  have hold := h.owned.cons (owner_kept hok)
  have hcases : Buffered lib s.mem chunk (s.mem.bufferChunk lib chunk) := bufferChunk_cases
  generalize hout : s.mem.bufferChunk lib chunk = out at hcases
  have happly : Stretch.apply lib s.mem (.chunk chunk c'.origin) = out.2 := by rw [← hout]; rfl
  have hfollow : follow lib (.idle c') s.mem (.chunk chunk c'.origin) =
      chunkWatch chunk.transferId c'.origin out.1 := by
    rw [← hout]
    rfl
  cases hcases with
  | ignored out not why =>
    refine ⟨hdelivers, happly ▸ hold, ?_, fun r heq => (by cases heq), fun x htouch => ?_⟩
    · rw [hfollow]
      rcases out with err | _ | updated
      · trivial
      · trivial
      · exact absurd rfl (not updated)
    · rw [happly] at htouch
      rcases htouch with hne | hne | ⟨r, hr, -⟩
      · exact absurd rfl hne
      · exact absurd rfl hne
      · cases hr
  | taken session buffer hs hmatch hb =>
    have howner := hok.2 chunk c'.origin hran ⟨session, hs, hmatch⟩
    have howner' := owner_kept hok _ _ howner
    obtain ⟨hid, o, ho, hopened⟩ := h.owned.sessions _ session hs
    cases howner.symm.trans ho
    obtain ⟨o', ho', htook⟩ := h.owned.buffers _ buffer hb
    cases howner.symm.trans ho'
    refine ⟨hdelivers, ?_, ?_, fun r heq => (by cases heq), fun x htouch => ?_⟩
    · rw [happly]
      have hkept : (session.markChunkReceived chunk.chunkIndex).manifest.transferId =
          chunk.transferId := hid
      have hsession := hold.setSession hkept howner' hopened.cons
      refine hsession.setBuffer howner' fun c hc => ?_
      rcases mem_put hc with rfl | hc
      · exact ⟨⟨e, .head _, hran⟩, rfl⟩
      · obtain ⟨ht, hcid⟩ := htook c hc
        exact ⟨ht.cons, hcid⟩
    · rw [hfollow]
      exact ⟨rfl, howner', hopened.cons, hid⟩
    · have hx : chunk.transferId = x := by
        by_contra hne
        rw [happly] at htouch
        rcases htouch with hne' | hne' | ⟨r, hr, -⟩
        · exact hne' (OMap.get_set_ne hne _ _)
        · exact hne' (OMap.get_set_ne hne _ _)
        · cases hr
      subst hx
      exact .inr howner

theorem stepped_reassemble (h : Inv lib s) (hok : (ownIds lib).ok s e) {transferId : String}
    {session : Session} {o : Origin} (hstand : Standing lib s.log c (.taken transferId session o)) :
    Stepped lib s e c (.taken transferId session o) (.reassemble transferId session o) := by
  obtain ⟨horigin, howner, hopened, hid⟩ := hstand
  have hold := h.owned.cons (owner_kept hok)
  have hdelivers : Delivers lib c (.reassemble transferId session o) := ⟨horigin.symm, nofun, nofun⟩
  cases hout : lib.reassemble session.manifest (OMap.get transferId s.mem.chunkBuffers) with
  | ok fileBytes =>
    have htogether : s.mem.putTogether lib transferId session = (.ok fileBytes, s.mem) := by
      unfold Fields.putTogether
      rw [hout]
    have happly : Stretch.apply lib s.mem (.reassemble transferId session o) = s.mem :=
      congrArg Prod.snd htogether
    refine ⟨hdelivers, by rw [happly]; exact hold, ?_, nofun, fun x htouch => ?_⟩
    · unfold follow
      dsimp only
      rw [htogether]
      refine ⟨horigin, owner_kept hok _ _ howner, hopened.cons, hid, _, hout,
        fun b chunk hb hchunk => ?_⟩
      obtain ⟨o', ho', htook⟩ := h.owned.buffers transferId b hb
      cases howner.symm.trans ho'
      obtain ⟨ht, hcid⟩ := htook chunk hchunk
      exact ⟨ht.cons, hcid⟩
    · rw [happly] at htouch
      rcases htouch with hne | hne | ⟨r, hr, -⟩
      · exact absurd rfl hne
      · exact absurd rfl hne
      · cases hr
  | error err =>
    have htogether : s.mem.putTogether lib transferId session =
        (.error err, { s.mem with sessions := OMap.set transferId session s.mem.sessions }) := by
      unfold Fields.putTogether
      rw [hout]
    have happly : Stretch.apply lib s.mem (.reassemble transferId session o) = _ :=
      congrArg Prod.snd htogether
    refine ⟨hdelivers, ?_, ?_, nofun, fun x htouch => ?_⟩
    · rw [happly]
      exact hold.setSession hid (owner_kept hok _ _ howner) hopened.cons
    · unfold follow
      dsimp only
      rw [htogether]
      trivial
    · have hx : transferId = x := by
        by_contra hne
        rw [happly] at htouch
        rcases htouch with hne' | hne' | ⟨r, hr, -⟩
        · exact hne' (OMap.get_set_ne hne _ _)
        · exact absurd rfl hne'
        · cases hr
      subst hx
      exact .inr howner

theorem stepped (h : Inv lib s) (hok : (ownIds lib).ok s e) {a : Watch} {l : Stretch}
    (hstand : Standing lib s.log c a) (hran : Script.ran e = some l) (hlegal : Legal lib a l) :
    Stepped lib s e c a l := by
  have hold := h.owned.cons (owner_kept hok)
  cases l with
  | manifest m o =>
    cases a with
    | idle c' => exact stepped_manifest h hok hstand hran hlegal
    | _ => exact hlegal.elim
  | chunk chunk o =>
    cases a with
    | idle c' => exact stepped_chunk h hok hstand hran hlegal
    | _ => exact hlegal.elim
  | reassemble transferId session o =>
    cases a with
    | taken transferId' updated o' =>
      obtain ⟨rfl, rfl, rfl, -⟩ := hlegal
      exact stepped_reassemble h hok hstand
    | _ => exact hlegal.elim
  | cleanup transferId o =>
    cases a with
    | whole r =>
      obtain ⟨rfl, rfl⟩ := hlegal
      obtain ⟨horigin, howner, hfrom⟩ := hstand
      refine ⟨⟨horigin.symm, nofun, nofun⟩, hold.deleteBuffer,
        ⟨horigin, owner_kept hok _ _ howner, hfrom.cons⟩, nofun, fun x htouch => ?_⟩
      have hx : r.transferId = x := by
        by_contra hne
        rcases htouch with hne' | hne' | ⟨r', hr, -⟩
        · exact hne' rfl
        · refine hne' ?_
          change OMap.get x (OMap.delete r.transferId s.mem.chunkBuffers) = _
          rw [OMap.get_delete, if_neg hne]
        · cases hr
      subst hx
      exact .inr howner
    | _ => exact hlegal.elim
  | report r =>
    cases a with
    | cleaned r' =>
      have hr : r = r' := hlegal
      subst hr
      obtain ⟨horigin, howner, hfrom⟩ := hstand
      refine ⟨⟨horigin.symm, nofun, nofun⟩, hold, trivial, fun r' heq => ?_, fun x htouch => ?_⟩
      · cases heq
        exact hfrom
      · rcases htouch with hne | hne | ⟨r', heq, rfl⟩
        · exact absurd rfl hne
        · exact absurd rfl hne
        · cases heq
          exact .inr howner
    | _ => exact hlegal.elim

/-! ## Every run -/

theorem Inv.fires (h : Inv lib s) (hf : Pool.Fires (transfers lib) s e c k s')
    (hok : (ownIds lib).ok s e) : Inv lib s' := by
  have hconforms := System.conforms_fires h.conforms hf trivial
  have hkeep := owner_kept hok
  -- what other calls know stays true
  have hother (hself : ∀ w, watch lib s' e.tid = some w → Standing lib (e :: s.log) c w) (t : Nat)
      (th : Thread service Call (Except Err Bool)) (w : Watch) (hth : s'.threads[t]? = some th)
      (hw : watch lib s' t = some w) :
      Standing lib s'.log th.call w := by
    rw [hf.log]
    obtain ⟨p, hp⟩ := hf.called hth
    by_cases ht : e.tid = t
    · subst ht
      cases hf.thread.symm.trans hp
      exact hself w hw
    · have hw' : watch lib s t = some w := by
        rw [← hw]
        exact (System.view_other hf ht).symm
      exact (h.standing t _ w hp hw').cons hkeep
  -- the logged events are still those of their calls
  have hdelivered (hnew : ∀ l, Script.ran e = some l → Delivers lib c l) :
      ∀ e' ∈ s'.log, ∀ l, Script.ran e' = some l →
      ∃ th, s'.threads[e'.tid]? = some th ∧ Delivers lib th.call l := by
    intro e' he' l hl
    rw [hf.log] at he'
    rcases List.mem_cons.mp he' with rfl | he'
    · obtain ⟨p, hp⟩ := hf.call hf.thread
      exact ⟨_, hp, hnew l hl⟩
    · obtain ⟨th, hth, hdel⟩ := h.attributed.delivered e' he' l hl
      obtain ⟨p, hp⟩ := hf.call hth
      exact ⟨_, hp, hdel⟩
  cases Script.turn h.conforms hf with
  | runs l i a exch mem before legal after =>
    have hran := Script.ran_run exch
    have hstep := stepped h hok (h.standing e.tid _ a hf.thread before) hran legal
    refine ⟨hconforms, ⟨hdelivered fun l' hl' => ?_, ?_, ?_⟩, ?_, hother fun w hw => ?_⟩
    · cases hran.symm.trans hl'
      exact hstep.delivers
    · rw [hf.log]
      refine ⟨fun r hr => ?_, h.attributed.reports⟩
      cases hran.symm.trans hr
      exact hstep.reports r rfl
    · rw [hf.log]
      refine ⟨fun l' g i' m hx x htouch => ?_, h.attributed.apart⟩
      cases exch.symm.trans hx
      exact hstep.apart x htouch
    · rw [hf.log, mem]
      exact hstep.owned
    · cases after.symm.trans hw
      exact hstep.standing
  | hears o r a exch allowed mem before asks after =>
    have hran := Script.ran_await exch
    refine ⟨hconforms, ⟨hdelivered fun l' hl' => ?_, ?_, ?_⟩, ?_, hother fun w hw => ?_⟩
    · cases hran.symm.trans hl'
    · rw [hf.log]
      refine ⟨fun r hr => ?_, h.attributed.reports⟩
      cases hran.symm.trans hr
    · rw [hf.log]
      refine ⟨fun l' g i' m hx => ?_, h.attributed.apart⟩
      cases exch.symm.trans hx
    · rw [hf.log, mem]
      exact h.owned.cons hkeep
    · cases after.symm.trans hw
      match r with
      | .ok () => exact (h.standing e.tid _ a hf.thread before).cons hkeep
      | .error err => trivial

end

theorem inv_inductive (lib : Lib) : ((transfers lib).lts (ownIds lib)).Inductive (Inv lib) := by
  refine System.inductive_of (fun m hm => ?_) (fun s c h _ => ?_) fun s e c k s' h hf hok =>
    h.fires hf hok
  · cases hm
    refine ⟨System.conforms_init _, ⟨fun e he => absurd he List.not_mem_nil, trivial, trivial⟩,
      ⟨nofun, nofun⟩, fun t th w hth => ?_⟩
    simp at hth
  · refine ⟨System.conforms_spawn h.conforms (obeys_run c),
      ⟨fun e he l hl => ?_, h.attributed.reports, h.attributed.apart⟩, h.owned, ?_⟩
    · obtain ⟨th, hth, hdel⟩ := h.attributed.delivered e he l hl
      exact ⟨th, Pool.spawn_thread hth, hdel⟩
    · intro t th w hth hw
      rcases h.conforms.view_spawned hw with ⟨rfl, rfl⟩ | hold
      · unfold Pool.spawn at hth
        dsimp only at hth
        rw [List.getElem?_append_right (Nat.le_refl _), Nat.sub_self] at hth
        cases hth
        rfl
      · obtain ⟨th₀, hth₀, -⟩ := Option.map_eq_some_iff.mp hold
        cases (Pool.spawn_thread hth₀).symm.trans hth
        exact h.standing t th w hth₀ hold

/-- In every run in which sessions and chunks stay with the origin of their
manifest. -/
theorem attributed (lib : Lib) :
    ∀ s, ((transfers lib).lts (ownIds lib)).Reachable s → Attributed lib s := by
  intro s hr
  exact ((inv_inductive lib).reachable s hr).attributed

namespace Example

open TransferCalls.Example

def anyJudge : System.Judge anySender where
  may _ _ := true
  ok _ _ := true
  may_iff _ _ _ := trivial
  ok_iff _ _ _ := trivial

/-- Alice alone delivers. -/
def aliceJudge : System.Judge (ownIds core) where
  may _ _ := true
  ok s e := match Script.ran e with
    | some (.manifest m o) =>
      decide (owner m.transferId s.log = none ∨ owner m.transferId s.log = some o)
    | some (.chunk c o) => decide (owner c.transferId s.log = some o)
    | _ => true
  may_iff _ _ _ := trivial
  ok_iff s e h := by
    refine ⟨fun m o hran => ?_, fun c o hran _ => ?_⟩
    · rw [hran] at h
      exact of_decide_eq_true h
    · rw [hran] at h
      exact of_decide_eq_true h

def reported (s : TransferState) (o : Origin) : Bool :=
  match s.log with
  | e :: _ => match Script.ran e with
    | some (.report r) => decide (r.origin = o ∧ r.fileBytes = file)
    | _ => false
  | [] => false

/-- The last event reports a file whose manifest came from elsewhere. -/
def misreported (s : TransferState) : Bool :=
  match s.log with
  | e :: older => match Script.ran e with
    | some (.report r) =>
      older.all fun e' => decide (Script.ran e' ≠ some (.manifest r.manifest r.origin))
    | _ => false
  | [] => false

theorem not_attributed_of_misreported {s : TransferState} (h : misreported s = true) :
    ¬ Attributed core s := by
  intro hatt
  have hreports := hatt.reports
  unfold misreported at h
  split at h
  · rename_i e older hlog
    rw [hlog] at hreports
    split at h
    · rename_i r hran
      obtain ⟨e', he', hopened⟩ := (hreports.1 r hran).manifest
      exact of_decide_eq_true (List.all_eq_true.mp h e' he') hopened
    · cases h
  · cases h

end Example

open TransferCalls.Example Example in
theorem attributed_alice :
    ∃ s, ((transfers core).lts (ownIds core)).Reachable s ∧ reported s alice = true ∧
      Attributed core s := by
  obtain ⟨s, hr, hs⟩ := System.reachable_of_play (S := transfers core) aliceJudge smooth
    [.call (sendManifest alice), .go 0 2, .call (sendChunk 1 alice), .go 1 2,
    .call (sendChunk 0 alice), .go 2 7]
    (m := .new) (P := fun s => reported s alice) rfl (by decide +kernel)
  exact ⟨s, hr, hs, attributed core s hr⟩

open TransferCalls.Example Example in
/-- Alice sends a manifest and a chunk, Mallory the other chunk: the file is
reported as Mallory's. -/
theorem misattributed :
    ∃ s, ((transfers core).lts anySender).Reachable s ∧ reported s mallory = true ∧
      ¬ Attributed core s := by
  obtain ⟨s, hr, hs⟩ := System.reachable_of_play (S := transfers core) anyJudge smooth
    [.call (sendManifest alice), .go 0 2, .call (sendChunk 1 alice), .go 1 2,
    .call (sendChunk 0 mallory), .go 2 7]
    (m := .new) (P := fun s => reported s mallory && misreported s) rfl (by decide +kernel)
  rw [Bool.and_eq_true] at hs
  exact ⟨s, hr, hs.1, not_attributed_of_misreported hs.2⟩

end RezSdk.L4.Attribution
