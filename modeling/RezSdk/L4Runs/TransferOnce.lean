import RezSdk.L4Runs.TransferCalls

/-!
# Files are received once

Messages are delivered at least once. A second manifest replaces the session
and empties the buffer, and a chunk that comes again once all flags are set
finds a session that is complete, with or without a buffer.

* `received_once`: in every run where the manifest comes again only while no
  chunk has been received, and chunks only while some are missing, the file is
  reported once, with its bytes, no delivery throws and no chunk is discarded.
* `received_wrong`: a chunk delivered again after the file was received throws;
  delivered again while the file is being stored, it is reported twice; and a
  manifest delivered again discards a chunk.
-/
namespace RezSdk.L4.TransferOnce

open RezSdk.L1 RezSdk.L3.FileTransfer RezSdk.L4.TransferCalls

/-! ## The property -/

/-- A file as `FileChunker.chunk` cuts it. -/
structure File where
  fileBytes : Bytes
  manifest : Manifest
  chunks : List Chunk

def File.transferId (f : File) : String := f.manifest.transferId

/-- What the chunker promises. -/
structure Chunked (lib : Lib) (f : File) : Prop where
  count : f.chunks.length = f.manifest.chunkCount
  some_chunk : f.chunks ≠ []
  ids : ∀ (i : Nat) (c : Chunk), f.chunks[i]? = some c → c.transferId = f.transferId ∧
    c.chunkIndex = i
  hashes : ∀ (i : Nat) (c : Chunk), f.chunks[i]? = some c →
    ∃ rawBytes, lib.base64ToBytes c.dataB64 = .ok rawBytes ∧
    f.manifest.chunkHashesHex[i]? = some (lib.sha256Hex rawBytes)
  whole : lib.reassemble f.manifest (some (f.chunks.map some)) = .ok f.fileBytes

def cut (lib : Lib) (fileBytes : Bytes) (options : String) : File :=
  ⟨fileBytes, (lib.chunk fileBytes options).1, (lib.chunk fileBytes options).2⟩

def Lawful (lib : Lib) : Prop := ∀ fileBytes options, fileBytes ≠ [] →
    Chunked lib (cut lib fileBytes options)

def Message.of (x : String) : Message → Prop
  | .manifest m => m.transferId = x
  | .chunk c => c.transferId = x
  | .other => False

/-- The call delivers a message of the transfer. -/
def IsOf (lib : Lib) (x : String) (c : Call) : Prop :=
  ∃ m, c.payload.message lib = .ok m ∧ Message.of x m

def reportOf (x : String) (e : TransferEvent) : Option Report :=
  match Script.ran e with
  | some (.report r) => if r.transferId = x then some r else none
  | _ => none

/-- The reports of the transfer, last first. -/
def reportsOf (x : String) (log : List TransferEvent) : List Report := log.filterMap (reportOf x)

/-- The chunk has been delivered. -/
def Handled (log : List TransferEvent) (c : Chunk) : Prop :=
  ∃ e ∈ log, ∃ o, Script.ran e = some (.chunk c o)

/-- A message of the transfer has been delivered that opens it. -/
def Opened (x : String) (log : List TransferEvent) : Prop :=
  ∃ e ∈ log, ∃ m o, Script.ran e = some (.manifest m o) ∧ m.transferId = x

/-- What is received stays received. -/
structure Keeps (x : String) (m m' : Fields) : Prop where
  chunks : ∀ (b : Buffer) (i : Nat) (c : Chunk), OMap.get x m.chunkBuffers = some b →
    b[i]? = some (some c) →
    ∃ b' : Buffer, OMap.get x m'.chunkBuffers = some b' ∧ b'[i]? = some (some c)
  flags : ∀ (session : Session) (i : Nat), OMap.get x m.sessions = some session →
    session.receivedChunks[i]? = some true →
    ∃ session', OMap.get x m'.sessions = some session' ∧ session'.receivedChunks[i]? = some true

structure Once (lib : Lib) (f : File) (s : TransferState) : Prop where
  once : (reportsOf f.transferId s.log).length ≤ 1
  exact : ∀ r ∈ reportsOf f.transferId s.log, r.manifest = f.manifest ∧ r.fileBytes = f.fileBytes
  unthrown : ∀ (t : Nat) (c : Call) (err : Err), s.threads[t]? = some ⟨c, .ret (.error err)⟩ →
    ¬ IsOf lib f.transferId c
  kept : Always (fun e _ => ∀ l g i m, e.exch = ⟨.run l g, (i, m)⟩ →
    ((∃ m o, l = .manifest m o) ∨ ∃ c o, l = .chunk c o) → Keeps f.transferId m (g i m)) s.log
  /-- every chunk was delivered and every delivery is done -/
  received : (∀ c ∈ f.chunks, Handled s.log c) →
    (∀ (t : Nat) (c : Call) (p : Receiving Bool), s.threads[t]? = some ⟨c, p⟩ →
    IsOf lib f.transferId c → ∃ x, p = .ret x) →
    (reportsOf f.transferId s.log).length = 1

/-- The manifest first, then the manifest and the chunks in any order; the
key-value store works. Other transfers are delivered as they like. -/
def deliveries (f : File) : TransferRules where
  init s := s = .new
  may _ _ := True
  ok s e :=
    (∀ m o, Script.ran e = some (.manifest m o) → m.transferId = f.transferId → m = f.manifest) ∧
    (∀ c o, Script.ran e = some (.chunk c o) → c.transferId = f.transferId →
    c ∈ f.chunks ∧ Opened f.transferId s.log) ∧
    ∀ o r, e.exch = ⟨.await o, r⟩ → r = .ok ()

/-- The manifest comes again only while no chunk was received, and a chunk
comes only while some chunk is missing. -/
def orderly (f : File) : TransferRules where
  init s := s = .new
  may _ _ := True
  ok s e := (deliveries f).ok s e ∧
    (∀ m o session, Script.ran e = some (.manifest m o) → m.transferId = f.transferId →
      OMap.get f.transferId s.mem.sessions = some session →
        ∀ b ∈ session.receivedChunks, b = false) ∧
    ∀ c o session, Script.ran e = some (.chunk c o) → c.transferId = f.transferId →
      OMap.get f.transferId s.mem.sessions = some session → session.isComplete = false

/-! ## The buffer of a transfer -/

/-- The chunks whose flag is set. -/
def held (chunks : List Chunk) (flags : List Bool) : Buffer :=
  List.zipWith (fun c b => if b then some c else none) chunks flags

section

variable {chunks : List Chunk} {flags : List Bool}

theorem held_get (i : Nat) : (held chunks flags)[i]? =
    (chunks[i]?).bind fun c => (flags[i]?).map fun b => if b then some c else none := by
  unfold held
  rw [List.getElem?_zipWith]
  cases chunks[i]? <;> cases flags[i]? <;> rfl

theorem held_none {n : Nat} (h : chunks.length = n) :
    held chunks (List.replicate n false) = List.replicate n none := by
  refine List.ext_getElem? fun i => ?_
  rw [held_get, List.getElem?_replicate, List.getElem?_replicate]
  by_cases hi : i < n
  · rw [if_pos hi, if_pos hi, List.getElem?_eq_getElem (h ▸ hi)]
    rfl
  · rw [if_neg hi, if_neg hi, List.getElem?_eq_none (by omega)]
    rfl

theorem held_all (h : flags.length = chunks.length) (hall : flags.all id = true) :
    held chunks flags = chunks.map some := by
  refine List.ext_getElem? fun i => ?_
  rw [held_get, List.getElem?_map]
  cases hc : chunks[i]? with
  | none => rfl
  | some c =>
    obtain ⟨hi, -⟩ := List.getElem?_eq_some_iff.mp hc
    have hi' : i < flags.length := by omega
    have htrue : flags[i] = true := List.all_eq_true.mp hall _ (List.getElem_mem hi')
    rw [List.getElem?_eq_getElem hi', htrue]
    rfl

theorem held_put {i : Nat} {c : Chunk} (h : flags.length = chunks.length)
    (hc : chunks[i]? = some c) :
    Buffer.put (held chunks flags) i c = held chunks (flags.set i true) := by
  obtain ⟨hi, hget⟩ := List.getElem?_eq_some_iff.mp hc
  have hlen : (held chunks flags).length = chunks.length := by
    unfold held
    rw [List.length_zipWith, h, Nat.min_self]
  unfold Buffer.put
  rw [hlen, Nat.sub_eq_zero_of_le hi, List.replicate_zero, List.append_nil]
  refine List.ext_getElem? fun j => ?_
  rw [List.getElem?_set, held_get, held_get, List.getElem?_set]
  by_cases hij : i = j
  · subst hij
    rw [if_pos rfl, if_pos rfl, if_pos (hlen ▸ hi), if_pos (h ▸ hi), hc]
    rfl
  · rw [if_neg hij, if_neg hij]

end

/-! ## The calls of the transfer -/

/-- The call completes the transfer. -/
def Active (x : String) : Watch → Prop
  | .taken transferId updated _ => transferId = x ∧ updated.isComplete = true
  | .whole r => r.transferId = x
  | .cleaned r => r.transferId = x
  | _ => False

def Good (f : File) (r : Report) : Prop := r.manifest = f.manifest ∧ r.fileBytes = f.fileBytes

/-- What an active call works with. -/
def Works (f : File) (m : Fields) : Watch → Prop
  | .taken _ updated _ =>
    updated.manifest = f.manifest ∧ OMap.get f.transferId m.chunkBuffers = some (f.chunks.map some)
  | .whole r => Good f r
  | .cleaned r => Good f r
  | _ => False

/-- What is known of a call of `c`. -/
def Standing (lib : Lib) (x : String) (c : Call) : Watch → Prop
  | .idle c' => c' = c
  | .taken transferId _ _ =>
    ∃ chunk, c.payload.message lib = .ok (.chunk chunk) ∧ chunk.transferId = transferId
  | .whole r =>
    ∃ chunk, c.payload.message lib = .ok (.chunk chunk) ∧ chunk.transferId = r.transferId
  | .cleaned r =>
    ∃ chunk, c.payload.message lib = .ok (.chunk chunk) ∧ chunk.transferId = r.transferId
  | .threw => ∃ chunk, c.payload.message lib = .ok (.chunk chunk) ∧ chunk.transferId ≠ x
  | .failed => False
  | .ended => True

variable {lib : Lib} {f : File}

/-- No call completes the transfer. -/
def Idle (lib : Lib) (f : File) (s : TransferState) : Prop :=
  ∀ t w, watch lib s t = some w → ¬ Active f.transferId w

inductive Stage (lib : Lib) (f : File) (s : TransferState) : Prop
  | fresh (session : OMap.get f.transferId s.mem.sessions = none)
      (buffer : OMap.get f.transferId s.mem.chunkBuffers = none)
      (unopened : ¬ Opened f.transferId s.log) (idle : Idle lib f s)
      (reports : reportsOf f.transferId s.log = [])
  | collecting (flags : List Bool)
      (session : OMap.get f.transferId s.mem.sessions = some ⟨f.manifest, flags⟩)
      (length : flags.length = f.chunks.length) (incomplete : flags.all id = false)
      (buffer : OMap.get f.transferId s.mem.chunkBuffers = some (held f.chunks flags))
      (idle : Idle lib f s) (reports : reportsOf f.transferId s.log = [])
  | finishing (flags : List Bool)
      (session : OMap.get f.transferId s.mem.sessions = some ⟨f.manifest, flags⟩)
      (length : flags.length = f.chunks.length) (complete : flags.all id = true)
      (t : Nat) (w : Watch) (call : watch lib s t = some w)
      (active : Active f.transferId w) (works : Works f s.mem w)
      (only : ∀ t' w', watch lib s t' = some w' → Active f.transferId w' →
      t' = t) (reports : reportsOf f.transferId s.log = [])
  | finished (flags : List Bool) (session : OMap.get f.transferId s.mem.sessions = some ⟨f.manifest,
      flags⟩)
      (length : flags.length = f.chunks.length) (complete : flags.all id = true)
      (r : Report) (good : Good f r)
      (reports : reportsOf f.transferId s.log = [r]) (idle : Idle lib f s)

/-- A step that does not concern the transfer. -/
structure Apart (lib : Lib) (f : File) (s s' : TransferState) : Prop where
  session : OMap.get f.transferId s'.mem.sessions = OMap.get f.transferId s.mem.sessions
  buffer : OMap.get f.transferId s'.mem.chunkBuffers = OMap.get f.transferId s.mem.chunkBuffers
  active : ∀ t w, Active f.transferId w → (watch lib s' t = some w ↔ watch lib s t = some w)
  reports : reportsOf f.transferId s'.log = reportsOf f.transferId s.log
  opened : Opened f.transferId s'.log → Opened f.transferId s.log

theorem Works.of_buffer {m m' : Fields} {w : Watch} (h : Works f m w)
    (hb : OMap.get f.transferId m'.chunkBuffers = OMap.get f.transferId m.chunkBuffers) :
    Works f m' w := by
  cases w with
  | taken transferId updated o =>
    obtain ⟨hmanifest, hbuffer⟩ := h
    exact ⟨hmanifest, hb.trans hbuffer⟩
  | whole r => exact h
  | cleaned r => exact h
  | _ => exact h.elim

theorem Stage.apart {s s' : TransferState} (h : Stage lib f s) (ha : Apart lib f s s') :
    Stage lib f s' := by
  have hidle (hi : Idle lib f s) : Idle lib f s' :=
    fun t w hw hact => hi t w ((ha.active t w hact).mp hw) hact
  cases h with
  | fresh session buffer unopened idle reports =>
    exact .fresh (ha.session.trans session) (ha.buffer.trans buffer)
      (fun ho => unopened (ha.opened ho)) (hidle idle) (ha.reports.trans reports)
  | collecting flags session length incomplete buffer idle reports =>
    exact .collecting flags (ha.session.trans session) length incomplete (ha.buffer.trans buffer)
      (hidle idle) (ha.reports.trans reports)
  | finishing flags session length complete t w call active works only reports =>
    refine .finishing flags (ha.session.trans session) length complete t w
      ((ha.active t w active).mpr call) active
      (works.of_buffer ha.buffer) (fun t' w' hw' hact' => ?_) (ha.reports.trans reports)
    exact only t' w' ((ha.active t' w' hact').mp hw') hact'
  | finished flags session length complete r good reports idle =>
    exact .finished flags (ha.session.trans session) length complete r good
      (ha.reports.trans reports) (hidle idle)

/-! ## One event -/

/-- An event takes its call from `a` to `a'`. -/
structure Next (lib : Lib) (s s' : TransferState) (e : TransferEvent) (a a' : Watch) : Prop where
  log : s'.log = e :: s.log
  before : watch lib s e.tid = some a
  after : watch lib s' e.tid = some a'
  other : ∀ t, e.tid ≠ t → watch lib s' t = watch lib s t

section

variable {s s' : TransferState} {e : TransferEvent} {a a' : Watch}

theorem Next.idle (h : Next lib s s' e a a') (hidle : Idle lib f s)
    (ha' : ¬ Active f.transferId a') : Idle lib f s' := by
  intro t w hw
  by_cases ht : e.tid = t
  · subst ht
    cases h.after.symm.trans hw
    exact ha'
  · rw [h.other t ht] at hw
    exact hidle t w hw

theorem Next.active (h : Next lib s s' e a a')
    (hsame : ¬ Active f.transferId a ∧ ¬ Active f.transferId a' ∨ a' = a) (t : Nat) (w : Watch)
    (hact : Active f.transferId w) : watch lib s' t = some w ↔ watch lib s t = some w := by
  by_cases ht : e.tid = t
  · subst ht
    rw [h.after, h.before, Option.some.injEq, Option.some.injEq]
    rcases hsame with ⟨ha, ha'⟩ | rfl
    · constructor
      · rintro rfl
        exact absurd hact ha'
      · rintro rfl
        exact absurd hact ha
    · exact Iff.rfl
  · rw [h.other t ht]

theorem Next.reports (h : Next lib s s' e a a') (hno : reportOf f.transferId e = none) :
    reportsOf f.transferId s'.log = reportsOf f.transferId s.log := by
  rw [h.log]
  exact List.filterMap_cons_none hno

theorem Next.opened (h : Next lib s s' e a a')
    (hno : ∀ m o, Script.ran e = some (.manifest m o) → m.transferId ≠ f.transferId)
    (ho : Opened f.transferId s'.log) : Opened f.transferId s.log := by
  obtain ⟨e', he', m, o, hran, hid⟩ := ho
  rw [h.log] at he'
  rcases List.mem_cons.mp he' with rfl | he'
  · exact absurd hid (hno m o hran)
  · exact ⟨e', he', m, o, hran, hid⟩

theorem reportOf_none (h : ∀ r, Script.ran e = some (.report r) → r.transferId ≠ f.transferId) :
    reportOf f.transferId e = none := by
  unfold reportOf
  split
  · rw [if_neg (h _ ‹_›)]
  · rfl

/-- An event of another transfer, or one that leaves the fields alone. -/
theorem Next.apart (h : Next lib s s' e a a')
    (hs : OMap.get f.transferId s'.mem.sessions = OMap.get f.transferId s.mem.sessions)
    (hb : OMap.get f.transferId s'.mem.chunkBuffers = OMap.get f.transferId s.mem.chunkBuffers)
    (hsame : ¬ Active f.transferId a ∧ ¬ Active f.transferId a' ∨ a' = a)
    (hreport : ∀ r, Script.ran e = some (.report r) → r.transferId ≠ f.transferId)
    (hmanifest : ∀ m o, Script.ran e = some (.manifest m o) → m.transferId ≠ f.transferId) :
    Apart lib f s s' :=
  ⟨hs, hb, h.active hsame, h.reports (reportOf_none hreport), h.opened hmanifest⟩

theorem Keeps.of_same
    (hs : OMap.get f.transferId s'.mem.sessions = OMap.get f.transferId s.mem.sessions)
    (hb : OMap.get f.transferId s'.mem.chunkBuffers = OMap.get f.transferId s.mem.chunkBuffers) :
    Keeps f.transferId s.mem s'.mem :=
  ⟨fun b _ _ hget hc => ⟨b, hb.trans hget, hc⟩,
  fun session _ hget hi => ⟨session, hs.trans hget, hi⟩⟩

/-! ### The events of the transfer -/

theorem replicate_incomplete (hf : Chunked lib f) :
    (List.replicate f.manifest.chunkCount false).all id = false := by
  have hpos : f.manifest.chunkCount ≠ 0 := by
    intro hzero
    have hlen := hf.count
    rw [hzero] at hlen
    exact hf.some_chunk (List.length_eq_zero_iff.mp hlen)
  obtain ⟨n, hn⟩ := Nat.exists_eq_succ_of_ne_zero hpos
  rw [hn]
  rfl

/-- Flags that are all set are not all clear. -/
theorem not_clear (hf : Chunked lib f) {flags : List Bool} (hlen : flags.length = f.chunks.length)
    (hall : flags.all id = true) (hclear : ∀ b ∈ flags, b = false) : False := by
  cases flags with
  | nil => exact hf.some_chunk (List.length_eq_zero_iff.mp hlen.symm)
  | cons b flags =>
    rw [hclear b (.head _)] at hall
    cases hall

theorem Stage.manifest (hf : Chunked lib f) (h : Stage lib f s) {o : Origin}
    (hnext : Next lib s s' e a .ended) (hran : Script.ran e = some (.manifest f.manifest o))
    (hmem : s'.mem = s.mem.startTransfer f.manifest)
    (hclear : ∀ session, OMap.get f.transferId s.mem.sessions = some session →
        ∀ b ∈ session.receivedChunks, b = false) :
    Stage lib f s' ∧ Keeps f.transferId s.mem s'.mem := by
  have hsession : OMap.get f.transferId s'.mem.sessions = some (.pending f.manifest) := by
    rw [hmem]
    exact OMap.get_set_self _ _ _
  have hbuffer : OMap.get f.transferId s'.mem.chunkBuffers =
      some (held f.chunks (List.replicate f.manifest.chunkCount false)) := by
    rw [hmem, held_none hf.count]
    exact OMap.get_set_self _ _ _
  have hreport : reportOf f.transferId e = none := reportOf_none fun r hr => by
    cases hran.symm.trans hr
  have hstage (hidle : Idle lib f s) (hreports : reportsOf f.transferId s.log = []) :
      Stage lib f s' := by
    refine .collecting _ hsession ?_ (replicate_incomplete hf) hbuffer (hnext.idle hidle id)
      ((hnext.reports hreport).trans hreports)
    rw [List.length_replicate, hf.count]
  -- no flag was set
  have hflags : ∀ (session : Session) (i : Nat), OMap.get f.transferId s.mem.sessions =
      some session →
      session.receivedChunks[i]? = some true → False := by
    intro session i hget hi
    cases hclear session hget true (List.mem_of_getElem? hi)
  cases h with
  | fresh session buffer unopened idle reports =>
    refine ⟨hstage idle reports,
      ⟨fun b i c hget => ?_, fun session i hget hi => (hflags session i hget hi).elim⟩⟩
    cases buffer.symm.trans hget
  | collecting flags session length incomplete buffer idle reports =>
    refine ⟨hstage idle reports,
      ⟨fun b i c hget hc => ?_, fun session i hget hi => (hflags session i hget hi).elim⟩⟩
    cases buffer.symm.trans hget
    rw [held_get] at hc
    obtain ⟨c', -, hc'⟩ := Option.bind_eq_some_iff.mp hc
    obtain ⟨b, hb, hsome⟩ := Option.map_eq_some_iff.mp hc'
    cases b with
    | true => exact (hflags _ i session hb).elim
    | false => cases hsome
  | finishing flags session length complete t w call active works only reports =>
    exact (not_clear hf length complete (hclear _ session)).elim
  | finished flags session length complete r good reports idle =>
    exact (not_clear hf length complete (hclear _ session)).elim

theorem hashMatches_chunk (hf : Chunked lib f) {i : Nat} {c : Chunk} (hc : f.chunks[i]? = some c)
    (flags : List Bool) : Fields.hashMatches lib ⟨f.manifest, flags⟩ c = .ok true := by
  obtain ⟨rawBytes, hraw, hhash⟩ := hf.hashes i c hc
  obtain ⟨-, hi⟩ := hf.ids i c hc
  unfold Fields.hashMatches
  rw [hraw, hi]
  change Except.ok (decide _) = _
  rw [hhash]
  simp

/-- A chunk of the transfer while some are missing. -/
theorem bufferChunk_chunk (hf : Chunked lib f) {m : Fields} {i : Nat} {c : Chunk}
    {flags : List Bool} (hc : f.chunks[i]? = some c)
    (hsession : OMap.get f.transferId m.sessions = some ⟨f.manifest, flags⟩)
    (hlen : flags.length = f.chunks.length)
    (hbuffer : OMap.get f.transferId m.chunkBuffers = some (held f.chunks flags)) :
    m.bufferChunk lib c =
      (.ok (some ⟨f.manifest, flags.set i true⟩),
        { sessions := OMap.set f.transferId ⟨f.manifest, flags.set i true⟩ m.sessions
          chunkBuffers :=
            OMap.set f.transferId (held f.chunks (flags.set i true)) m.chunkBuffers }) := by
  obtain ⟨hid, hi⟩ := hf.ids i c hc
  unfold Fields.bufferChunk
  rw [hid, hsession]
  dsimp only
  rw [hashMatches_chunk hf hc flags]
  dsimp only
  rw [hbuffer]
  dsimp only
  rw [hi, held_put hlen hc]
  rfl

theorem Stage.chunk (hf : Chunked lib f) (h : Stage lib f s) {c : Chunk} {o : Origin} {i : Nat}
    (hc : f.chunks[i]? = some c) (hnext : Next lib s s' e a (follow lib a s.mem (.chunk c o)))
    (hran : Script.ran e = some (.chunk c o)) (hmem : s'.mem = (s.mem.bufferChunk lib c).2)
    (hopened : Opened f.transferId s.log)
    (hmissing :
        ∀ session, OMap.get f.transferId s.mem.sessions = some session →
          session.isComplete = false) :
    Stage lib f s' ∧ Keeps f.transferId s.mem s'.mem ∧
    ∃ session, OMap.get f.transferId s'.mem.sessions = some session ∧
      session.receivedChunks[i]? = some true := by
  cases h with
  | fresh session buffer unopened idle reports => exact absurd hopened unopened
  | finishing flags session length complete t w call active works only reports =>
    cases complete.symm.trans (hmissing _ session)
  | finished flags session length complete r good reports idle =>
    cases complete.symm.trans (hmissing _ session)
  | collecting flags session length incomplete buffer idle reports =>
    have hout := bufferChunk_chunk hf hc session length buffer
    obtain ⟨hid, hidx⟩ := hf.ids i c hc
    have hi : i < flags.length := by
      rw [length]
      exact (List.getElem?_eq_some_iff.mp hc).1
    have hfollow : follow lib a s.mem (.chunk c o) = .taken f.transferId ⟨f.manifest,
        flags.set i true⟩ o := by
      unfold follow
      dsimp only
      rw [hout, hid]
    rw [hfollow] at hnext
    rw [hout] at hmem
    have hsession' :
        OMap.get f.transferId s'.mem.sessions = some ⟨f.manifest, flags.set i true⟩ := by
      rw [hmem]
      exact OMap.get_set_self _ _ _
    have hbuffer' :
        OMap.get f.transferId s'.mem.chunkBuffers = some (held f.chunks (flags.set i true)) := by
      rw [hmem]
      exact OMap.get_set_self _ _ _
    have hlength' : (flags.set i true).length = f.chunks.length := by rw [List.length_set, length]
    have hreports' :=
      (hnext.reports (reportOf_none fun r hr => by cases hran.symm.trans hr)).trans reports
    have hset (j : Nat) (hj : flags[j]? = some true) : (flags.set i true)[j]? = some true := by
      by_cases hij : i = j
      · subst hij
        exact List.getElem?_set_self hi
      · rw [List.getElem?_set_ne hij]
        exact hj
    refine ⟨?_, ⟨fun b j c' hget hc' => ⟨_, hbuffer', ?_⟩,
      fun session' j hget hj => ⟨_, hsession', ?_⟩⟩, _, hsession',
      List.getElem?_set_self hi⟩
    · cases hall : (flags.set i true).all id with
      | true =>
        refine .finishing _ hsession' hlength' hall e.tid _ hnext.after ⟨rfl,
          hall⟩ ⟨rfl, ?_⟩ (fun t' w' hw' hact => ?_) hreports'
        · rw [hbuffer', held_all hlength' hall]
        · by_contra hne
          rw [hnext.other t' (Ne.symm hne)] at hw'
          exact idle t' w' hw' hact
      | false =>
        refine .collecting _ hsession' hlength' hall hbuffer' (hnext.idle idle ?_) hreports'
        rintro ⟨-, hcomplete⟩
        cases hall.symm.trans hcomplete
    · cases buffer.symm.trans hget
      rw [held_get] at hc' ⊢
      obtain ⟨c₁, hc₁, hb₁⟩ := Option.bind_eq_some_iff.mp hc'
      obtain ⟨b, hb, hsome⟩ := Option.map_eq_some_iff.mp hb₁
      cases b with
      | false => cases hsome
      | true =>
        rw [hc₁, Option.bind_some, hset j hb]
        exact congrArg some hsome
    · cases session.symm.trans hget
      exact hset j hj

/-- The call that an active one takes on. -/
theorem Stage.finish (h : Stage lib f s) (hnext : Next lib s s' e a a')
    (hact : Active f.transferId a) :
    Works f s.mem a ∧ reportsOf f.transferId s.log = [] ∧
    (Active f.transferId a' →
      OMap.get f.transferId s'.mem.sessions = OMap.get f.transferId s.mem.sessions →
      Works f s'.mem a' → reportOf f.transferId e = none → Stage lib f s') ∧
    (¬ Active f.transferId a' →
      OMap.get f.transferId s'.mem.sessions = OMap.get f.transferId s.mem.sessions →
      ∀ r, Good f r → reportOf f.transferId e = some r → Stage lib f s') := by
  cases h with
  | fresh session buffer unopened idle reports => exact absurd hact (idle _ _ hnext.before)
  | collecting flags session length incomplete buffer idle reports =>
    exact absurd hact (idle _ _ hnext.before)
  | finished flags session length complete r good reports idle =>
    exact absurd hact (idle _ _ hnext.before)
  | finishing flags session length complete t w call active works only reports =>
    cases only e.tid a hnext.before hact
    cases call.symm.trans hnext.before
    refine ⟨works, reports, fun hact' hs works' hreport => ?_, fun hdone hs r good hreport => ?_⟩
    · refine .finishing flags (hs.trans session) length complete e.tid a' hnext.after hact' works'
        (fun t' w' hw' hactive => ?_)
        ((hnext.reports hreport).trans reports)
      by_contra hne
      rw [hnext.other t' (Ne.symm hne)] at hw'
      exact hne (only t' w' hw' hactive)
    · refine .finished flags (hs.trans session) length complete r good ?_ fun t' w' hw' hactive =>
        ?_
      · rw [hnext.log]
        exact (List.filterMap_cons_some hreport).trans (congrArg (r :: ·) reports)
      · by_cases ht : e.tid = t'
        · subst ht
          cases hnext.after.symm.trans hw'
          exact hdone hactive
        · rw [hnext.other t' ht] at hw'
          exact ht (only t' w' hw' hactive).symm

theorem Stage.reassemble (hf : Chunked lib f) (h : Stage lib f s) {transferId : String}
    {session : Session} {o : Origin} (hcomplete : session.isComplete = true)
    (hnext : Next lib s s' e (.taken transferId session o)
        (follow lib (.taken transferId session o) s.mem (.reassemble transferId session o)))
    (hran : Script.ran e = some (.reassemble transferId session o))
    (hmem : s'.mem = (s.mem.putTogether lib transferId session).2) :
    Stage lib f s' ∧
    OMap.get f.transferId s'.mem.sessions = OMap.get f.transferId s.mem.sessions := by
  have hno : reportOf f.transferId e = none := reportOf_none fun r hr => by cases hran.symm.trans hr
  by_cases hx : transferId = f.transferId
  · subst hx
    obtain ⟨works, -, hgo, -⟩ := h.finish hnext ⟨rfl, hcomplete⟩
    obtain ⟨hmanifest, hbuffer⟩ := works
    have hout : s.mem.putTogether lib f.transferId session = (.ok f.fileBytes, s.mem) := by
      unfold Fields.putTogether
      rw [hmanifest, hbuffer, hf.whole]
    have hfollow :
        follow lib (.taken f.transferId session o) s.mem (.reassemble f.transferId session o) =
        .whole ⟨f.transferId, session.manifest, f.fileBytes, o⟩ := by
      unfold follow
      dsimp only
      rw [hout]
    rw [hout] at hmem
    rw [hmem]
    rw [hfollow] at hgo
    exact ⟨hgo rfl (by rw [hmem]) ⟨hmanifest, rfl⟩ hno, rfl⟩
  · have hsessions :
        OMap.get f.transferId s'.mem.sessions = OMap.get f.transferId s.mem.sessions := by
      rw [hmem]
      unfold Fields.putTogether
      split
      · rfl
      · exact OMap.get_set_ne hx _ _
    have hbuffers :
        OMap.get f.transferId s'.mem.chunkBuffers = OMap.get f.transferId s.mem.chunkBuffers := by
      rw [hmem]
      unfold Fields.putTogether
      split <;> rfl
    refine ⟨h.apart (hnext.apart hsessions hbuffers (.inl ⟨fun hact => hx hact.1, ?_⟩)
      (fun r hr => by cases hran.symm.trans hr)
      fun m o hm => by cases hran.symm.trans hm), hsessions⟩
    unfold follow
    dsimp only
    split
    · exact hx
    · exact id

theorem Stage.cleanup (h : Stage lib f s) {r : Report}
    (hnext : Next lib s s' e (.whole r) (.cleaned r))
    (hran : Script.ran e = some (.cleanup r.transferId r.origin))
    (hmem : s'.mem = { s.mem with chunkBuffers := OMap.delete r.transferId s.mem.chunkBuffers }) :
    Stage lib f s' := by
  have hno : reportOf f.transferId e = none := reportOf_none fun r hr => by cases hran.symm.trans hr
  have hsessions :
      OMap.get f.transferId s'.mem.sessions = OMap.get f.transferId s.mem.sessions := by
    rw [hmem]
  by_cases hx : r.transferId = f.transferId
  · obtain ⟨works, -, hgo, -⟩ := h.finish hnext hx
    exact hgo hx hsessions works hno
  · refine h.apart
      (hnext.apart hsessions ?_ (.inl ⟨hx, hx⟩) (fun r hr => by cases hran.symm.trans hr)
      fun m o hm => by cases hran.symm.trans hm)
    rw [hmem]
    dsimp only
    rw [OMap.get_delete, if_neg hx]

theorem Stage.report (h : Stage lib f s) {r : Report} (hnext : Next lib s s' e (.cleaned r) .ended)
    (hran : Script.ran e = some (.report r)) (hmem : s'.mem = s.mem) : Stage lib f s' := by
  have hsessions :
      OMap.get f.transferId s'.mem.sessions = OMap.get f.transferId s.mem.sessions := by
    rw [hmem]
  by_cases hx : r.transferId = f.transferId
  · obtain ⟨works, -, -, hdone⟩ := h.finish hnext hx
    refine hdone id hsessions r works ?_
    unfold reportOf
    rw [hran]
    exact if_pos hx
  · refine h.apart
      (hnext.apart hsessions (by rw [hmem]) (.inl ⟨hx, id⟩) (fun r' hr => ?_) fun m o hm => ?_)
    · cases hran.symm.trans hr
      exact hx
    · cases hran.symm.trans hm

end

/-! ## Every run -/

structure Inv (lib : Lib) (f : File) (s : TransferState) : Prop where
  conforms : Conforms lib s
  stage : Stage lib f s
  standing : ∀ (t : Nat) (th : Thread service Call (Except Err Bool)) (w : Watch), s.threads[t]? =
    some th →
    watch lib s t = some w → Standing lib f.transferId th.call w
  marks : ∀ (i : Nat) (c : Chunk), f.chunks[i]? = some c → Handled s.log c →
    ∃ session, OMap.get f.transferId s.mem.sessions = some session ∧
    session.receivedChunks[i]? = some true
  kept : Always (fun e _ => ∀ l g i m, e.exch = ⟨.run l g, (i, m)⟩ →
    ((∃ m o, l = .manifest m o) ∨ ∃ c o, l = .chunk c o) → Keeps f.transferId m (g i m)) s.log

/-- What a stretch leaves, and where its call stands then. -/
structure Stepped (lib : Lib) (f : File) (s s' : TransferState) (c : Call) (a : Watch)
    (l : Stretch) : Prop where
  stage : Stage lib f s'
  flags : ∀ (session : Session) (i : Nat), OMap.get f.transferId s.mem.sessions = some session →
    session.receivedChunks[i]? = some true →
    ∃ session', OMap.get f.transferId s'.mem.sessions = some session' ∧
    session'.receivedChunks[i]? = some true
  keeps : ((∃ m o, l = .manifest m o) ∨ ∃ c o, l = .chunk c o) → Keeps f.transferId s.mem s'.mem
  marked : ∀ (i : Nat) (chunk : Chunk) (o : Origin), l = .chunk chunk o →
    f.chunks[i]? = some chunk →
    ∃ session, OMap.get f.transferId s'.mem.sessions = some session ∧
    session.receivedChunks[i]? = some true
  standing : Standing lib f.transferId c (follow lib a s.mem l)

section

variable {s s' : TransferState} {e : TransferEvent} {c : Call} {a : Watch}

theorem stepped_manifest (hf : Chunked lib f) (h : Stage lib f s) (hok : (orderly f).ok s e)
    {m : Manifest} {o : Origin} (hnext : Next lib s s' e a .ended) (hidle : ¬ Active f.transferId a)
    (hran : Script.ran e = some (.manifest m o)) (hmem : s'.mem = s.mem.startTransfer m) :
    Stepped lib f s s' c a (.manifest m o) := by
  by_cases hx : m.transferId = f.transferId
  · have hm := hok.1.1 m o hran hx
    subst hm
    obtain ⟨hstage, hkeeps⟩ :=
      h.manifest hf hnext hran hmem fun session hs => hok.2.1 _ o session hran hx hs
    exact ⟨hstage, hkeeps.flags, fun _ => hkeeps, nofun, trivial⟩
  · have hsessions :
        OMap.get f.transferId s'.mem.sessions = OMap.get f.transferId s.mem.sessions := by
      rw [hmem]
      exact OMap.get_set_ne hx _ _
    have hbuffers :
        OMap.get f.transferId s'.mem.chunkBuffers = OMap.get f.transferId s.mem.chunkBuffers := by
      rw [hmem]
      exact OMap.get_set_ne hx _ _
    have hkeeps : Keeps f.transferId s.mem s'.mem := .of_same hsessions hbuffers
    refine ⟨h.apart (hnext.apart hsessions hbuffers (.inl ⟨hidle, id⟩)
      (fun r hr => ?_) fun m' o' hm => ?_), hkeeps.flags, fun _ => hkeeps,
      nofun, trivial⟩
    · cases hran.symm.trans hr
    · cases hran.symm.trans hm
      exact hx

theorem stepped_chunk (hf : Chunked lib f) (h : Stage lib f s) (hok : (orderly f).ok s e)
    {chunk : Chunk} {o : Origin} (hmessage : c.payload.message lib = .ok (.chunk chunk))
    (hnext : Next lib s s' e a (follow lib a s.mem (.chunk chunk o)))
    (hidle : ¬ Active f.transferId a) (hran : Script.ran e = some (.chunk chunk o))
    (hmem : s'.mem = (s.mem.bufferChunk lib chunk).2) :
    Stepped lib f s s' c a (.chunk chunk o) := by
  have hfollow := follow_chunk lib a s.mem chunk o
  by_cases hx : chunk.transferId = f.transferId
  · obtain ⟨hchunk, hopened⟩ := hok.1.2.1 chunk o hran hx
    obtain ⟨i, hi⟩ := List.mem_iff_getElem?.mp hchunk
    obtain ⟨hstage, hkeeps, hmarked⟩ :=
      h.chunk hf hi hnext hran hmem hopened fun session hs => hok.2.2 chunk o session hran hx hs
    refine ⟨hstage, hkeeps.flags, fun _ => hkeeps, fun j chunk' o' heq hj => ?_, ?_⟩
    · cases heq
      -- a chunk has one place
      have hsame := (hf.ids i chunk hi).2.symm.trans (hf.ids j chunk hj).2
      subst hsame
      exact hmarked
    · cases h with
      | fresh session buffer unopened idle reports => exact absurd hopened unopened
      | collecting flags session length incomplete buffer idle reports =>
        rw [hfollow, bufferChunk_chunk hf hi session length buffer]
        exact ⟨chunk, hmessage, rfl⟩
      | finishing flags session length complete t w call active works only reports =>
        cases complete.symm.trans (hok.2.2 chunk o _ hran hx session)
      | finished flags session length complete r good reports idle =>
        cases complete.symm.trans (hok.2.2 chunk o _ hran hx session)
  · have hcases : Buffered lib s.mem chunk (s.mem.bufferChunk lib chunk) := bufferChunk_cases
    generalize hout : s.mem.bufferChunk lib chunk = out at hcases hmem hfollow
    have hsessions :
        OMap.get f.transferId s'.mem.sessions = OMap.get f.transferId s.mem.sessions := by
      rw [hmem]
      cases hcases with
      | ignored out not why => rfl
      | taken session buffer hs hmatch hb => exact OMap.get_set_ne hx _ _
    have hbuffers :
        OMap.get f.transferId s'.mem.chunkBuffers = OMap.get f.transferId s.mem.chunkBuffers := by
      rw [hmem]
      cases hcases with
      | ignored out not why => rfl
      | taken session buffer hs hmatch hb => exact OMap.get_set_ne hx _ _
    have hkeeps : Keeps f.transferId s.mem s'.mem := .of_same hsessions hbuffers
    refine ⟨h.apart (hnext.apart hsessions hbuffers (.inl ⟨hidle, ?_⟩)
      (fun r hr => ?_) fun m o' hm => ?_), hkeeps.flags, fun _ => hkeeps,
      fun j chunk' o' heq hj => ?_, ?_⟩
    · rw [hfollow]
      rcases out with ⟨err | _ | updated, m⟩
      · exact id
      · exact id
      · exact fun hact => hx hact.1
    · cases hran.symm.trans hr
    · cases hran.symm.trans hm
    · cases heq
      exact absurd (hf.ids j chunk hj).1 hx
    · rw [hfollow]
      rcases out with ⟨err | _ | updated, m⟩
      · exact ⟨chunk, hmessage, hx⟩
      · trivial
      · exact ⟨chunk, hmessage, rfl⟩

theorem stepped (hf : Chunked lib f) (h : Stage lib f s) (hok : (orderly f).ok s e) {l : Stretch}
    (hstand : Standing lib f.transferId c a) (hlegal : Legal lib a l)
    (hnext : Next lib s s' e a (follow lib a s.mem l)) (hran : Script.ran e = some l)
    (hmem : s'.mem = l.apply lib s.mem) : Stepped lib f s s' c a l := by
  cases l with
  | manifest m o =>
    cases a with
    | idle c' => exact stepped_manifest hf h hok hnext id hran hmem
    | _ => exact hlegal.elim
  | chunk chunk o =>
    cases a with
    | idle c' =>
      have hc : c' = c := hstand
      subst hc
      exact stepped_chunk hf h hok hlegal.1 hnext id hran hmem
    | _ => exact hlegal.elim
  | reassemble transferId session o =>
    cases a with
    | taken transferId' updated o' =>
      obtain ⟨rfl, rfl, rfl, hcomplete⟩ := hlegal
      obtain ⟨hstage, hsessions⟩ := h.reassemble hf hcomplete hnext hran hmem
      refine ⟨hstage, fun session' i hget hi => ⟨session', hsessions.trans hget, hi⟩, ?_, nofun, ?_⟩
      · rintro (⟨_, _, heq⟩ | ⟨_, _, heq⟩) <;> cases heq
      · unfold follow
        dsimp only
        split
        · exact hstand
        · trivial
    | _ => exact hlegal.elim
  | cleanup transferId o =>
    cases a with
    | whole r =>
      obtain ⟨rfl, rfl⟩ := hlegal
      refine ⟨h.cleanup hnext hran hmem,
        fun session' i hget hi => ⟨session', by rw [hmem]; exact hget, hi⟩, ?_, nofun, hstand⟩
      rintro (⟨_, _, heq⟩ | ⟨_, _, heq⟩) <;> cases heq
    | _ => exact hlegal.elim
  | report r =>
    cases a with
    | cleaned r' =>
      have hr : r = r' := hlegal
      subst hr
      refine ⟨h.report hnext hran hmem,
        fun session' i hget hi => ⟨session', by rw [hmem]; exact hget, hi⟩, ?_, nofun, trivial⟩
      rintro (⟨_, _, heq⟩ | ⟨_, _, heq⟩) <;> cases heq
    | _ => exact hlegal.elim

theorem handled_cons {log : List TransferEvent} {chunk : Chunk} (h : Handled (e :: log) chunk) :
    (∃ o, Script.ran e = some (.chunk chunk o)) ∨ Handled log chunk := by
  obtain ⟨e', he', hran⟩ := h
  rcases List.mem_cons.mp he' with rfl | he'
  · exact .inl hran
  · exact .inr ⟨e', he', hran⟩

theorem Inv.fires (hf : Chunked lib f) (h : Inv lib f s)
    {k : service.Ans e.op → Proc service (Except Err Bool)}
    (hfires : Pool.Fires (transfers lib) s e c k s') (hok : (orderly f).ok s e) : Inv lib f s' := by
  have hconforms := System.conforms_fires h.conforms hfires trivial
  have hstanding (hself : ∀ w, watch lib s' e.tid = some w →
      Standing lib f.transferId c w) (t : Nat)
      (th : Thread service Call (Except Err Bool)) (w : Watch) (hth : s'.threads[t]? = some th)
      (hw : watch lib s' t = some w) :
      Standing lib f.transferId th.call w := by
    obtain ⟨p, hp⟩ := hfires.called hth
    by_cases ht : e.tid = t
    · subst ht
      cases hfires.thread.symm.trans hp
      exact hself w hw
    · have hw' : watch lib s t = some w := by
        rw [← hw]
        exact (System.view_other hfires ht).symm
      exact h.standing t ⟨th.call, p⟩ w hp hw'
  cases Script.turn h.conforms hfires with
  | runs l i a exch mem before legal after =>
    have hran := Script.ran_run exch
    have hnext : Next lib s s' e a (follow lib a s.mem l) :=
      ⟨hfires.log, before, after, fun t ht => System.view_other hfires ht⟩
    have hstep :=
      stepped hf h.stage hok (h.standing e.tid _ a hfires.thread before) legal hnext hran mem
    refine ⟨hconforms, hstep.stage, hstanding fun w hw => ?_, fun j chunk hj hhandled => ?_, ?_⟩
    · cases after.symm.trans hw
      exact hstep.standing
    · rw [hfires.log] at hhandled
      rcases handled_cons hhandled with ⟨o, ho⟩ | hhandled
      · cases hran.symm.trans ho
        exact hstep.marked j chunk o rfl hj
      · obtain ⟨session, hs, hflag⟩ := h.marks j chunk hj hhandled
        exact hstep.flags session j hs hflag
    · rw [hfires.log]
      refine ⟨fun l' g i' m hx hl' => ?_, h.kept⟩
      cases exch.symm.trans hx
      have hkeeps := hstep.keeps hl'
      rw [mem] at hkeeps
      exact hkeeps
  | hears o r a exch allowed mem before asks after =>
    have hran := Script.ran_await exch
    cases hok.1.2.2 o r exch
    have hmem : s'.mem = s.mem := mem
    have hnext : Next lib s s' e a a :=
      ⟨hfires.log, before, after, fun t ht => System.view_other hfires ht⟩
    refine ⟨hconforms, ?_, hstanding fun w hw => ?_, fun j chunk hj hhandled => ?_, ?_⟩
    · refine h.stage.apart
        (hnext.apart (by rw [hmem]) (by rw [hmem]) (.inr rfl) (fun r hr => ?_) fun m o hm => ?_)
      · cases hran.symm.trans hr
      · cases hran.symm.trans hm
    · cases after.symm.trans hw
      exact h.standing e.tid _ a hfires.thread before
    · rw [hfires.log] at hhandled
      rw [hmem]
      rcases handled_cons hhandled with ⟨o, ho⟩ | hhandled
      · cases hran.symm.trans ho
      · exact h.marks j chunk hj hhandled
    · rw [hfires.log]
      refine ⟨fun l' g i' m hx => ?_, h.kept⟩
      cases exch.symm.trans hx

end

theorem inv_inductive (hf : Chunked lib f) :
    ((transfers lib).lts (orderly f)).Inductive (Inv lib f) := by
  refine System.inductive_of (fun m hm => ?_) (fun s c h _ => ?_) fun s e c k s' h hfires hok =>
    h.fires hf hfires hok
  · cases hm
    have hno : ∀ t w, watch lib (⟨.new, [], []⟩ : TransferState) t ≠ some w := by
      intro t w hw
      rw [watch, Script.view, System.view_init] at hw
      cases hw
    refine ⟨System.conforms_init _, .fresh rfl rfl ?_ (fun t w hw => absurd hw (hno t w)) rfl,
      fun t th w hth => ?_, ?_, trivial⟩
    · rintro ⟨e, he, -⟩
      exact absurd he List.not_mem_nil
    · simp at hth
    · rintro i c - ⟨e, he, -⟩
      exact absurd he List.not_mem_nil
  · refine ⟨System.conforms_spawn h.conforms (obeys_run c),
      h.stage.apart ⟨rfl, rfl, fun t w hact => ?_, rfl, id⟩, ?_, h.marks, h.kept⟩
    · constructor
      · intro hw
        rcases h.conforms.view_spawned hw with ⟨-, rfl⟩ | hold
        · exact hact.elim
        · exact hold
      · exact fun hw => h.conforms.view_kept hw
    · intro t th w hth hw
      rcases h.conforms.view_spawned hw with ⟨rfl, rfl⟩ | hold
      · unfold Pool.spawn at hth
        dsimp only at hth
        rw [List.getElem?_append_right (Nat.le_refl _), Nat.sub_self] at hth
        cases hth
        rfl
      · obtain ⟨th₀, hth₀, -⟩ := Option.map_eq_some_iff.mp hold
        cases (Pool.spawn_thread hth₀).symm.trans hth
        exact h.standing t th w hth₀ hold

section

variable {s : TransferState}

/-- A call that has returned completes nothing any more. -/
theorem not_active_of_returned (h : Inv lib f s) {t : Nat} {c : Call} {x : Except Err Bool}
    {w : Watch} (ht : s.threads[t]? = some ⟨c, .ret x⟩) (hw : watch lib s t = some w) :
    ¬ Active f.transferId w := by
  have hends := h.conforms.result ht
  cases (System.view_thread ht).symm.trans hw
  cases x with
  | error err =>
    rcases hends with hfailed | hthrew | ⟨hidle, -⟩
    · rw [hfailed]
      exact id
    · rw [hthrew]
      exact id
    · rw [hidle]
      exact id
  | ok b =>
    rcases hends with hended | ⟨transferId, updated, o, htaken, hincomplete⟩ | ⟨hidle, -⟩
    · rw [hended]
      exact id
    · rw [htaken]
      rintro ⟨-, hcomplete⟩
      cases hincomplete.symm.trans hcomplete
    · rw [hidle]
      exact id

/-- An active call delivers a message of the transfer. -/
theorem isOf_of_active {c : Call} {w : Watch} (h : Standing lib f.transferId c w)
    (hact : Active f.transferId w) : IsOf lib f.transferId c := by
  cases w with
  | taken transferId updated o =>
    obtain ⟨chunk, hmessage, hid⟩ := h
    exact ⟨_, hmessage, hid.trans hact.1⟩
  | whole r =>
    obtain ⟨chunk, hmessage, hid⟩ := h
    exact ⟨_, hmessage, hid.trans hact⟩
  | cleaned r =>
    obtain ⟨chunk, hmessage, hid⟩ := h
    exact ⟨_, hmessage, hid.trans hact⟩
  | _ => exact hact.elim

theorem Inv.unthrown (h : Inv lib f s) {t : Nat} {c : Call} {err : Err}
    (ht : s.threads[t]? = some ⟨c, .ret (.error err)⟩) : ¬ IsOf lib f.transferId c := by
  have hends := h.conforms.result ht
  have hstand := h.standing t _ _ ht (System.view_thread ht)
  rintro ⟨m, hm, hof⟩
  rcases hends with hfailed | hthrew | ⟨-, herror⟩
  · rw [hfailed] at hstand
    exact hstand
  · rw [hthrew] at hstand
    obtain ⟨chunk, hmessage, hid⟩ := hstand
    cases hm.symm.trans hmessage
    exact hid hof
  · cases hm.symm.trans herror

theorem Inv.received (hf : Chunked lib f) (h : Inv lib f s) (hall : ∀ c ∈ f.chunks, Handled s.log c)
    (hdone : ∀ (t : Nat) (c : Call) (p : Receiving Bool), s.threads[t]? = some ⟨c, p⟩ →
        IsOf lib f.transferId c → ∃ x, p = .ret x) : (reportsOf f.transferId s.log).length = 1 := by
  cases hstage : h.stage with
  | fresh session buffer unopened idle reports =>
    -- there is a chunk, and it was marked
    obtain ⟨c, hc⟩ := List.exists_mem_of_ne_nil _ hf.some_chunk
    obtain ⟨i, hi⟩ := List.mem_iff_getElem?.mp hc
    obtain ⟨session', hs', -⟩ := h.marks i c hi (hall c hc)
    cases session.symm.trans hs'
  | collecting flags session length incomplete buffer idle reports =>
    have htrue : flags.all id = true := by
      refine List.all_eq_true.mpr fun b hb => ?_
      obtain ⟨i, hi⟩ := List.mem_iff_getElem?.mp hb
      obtain ⟨hlt, -⟩ := List.getElem?_eq_some_iff.mp hi
      have hc : f.chunks[i]? = some f.chunks[i] := List.getElem?_eq_getElem (length ▸ hlt)
      obtain ⟨session', hs', hflag⟩ := h.marks i _ hc (hall _ (List.mem_of_getElem? hc))
      cases session.symm.trans hs'
      cases hi.symm.trans hflag
      rfl
    cases incomplete.symm.trans htrue
  | finishing flags session length complete t w call active works only reports =>
    obtain ⟨⟨c, p⟩, hth, -⟩ := Option.map_eq_some_iff.mp call
    obtain ⟨x, rfl⟩ := hdone t c p hth (isOf_of_active (h.standing t _ w hth call) active)
    exact absurd active (not_active_of_returned h hth call)
  | finished flags session length complete r good reports idle =>
    rw [reports]
    rfl

end

/-- For every file that `FileChunker` cuts, over every orderly run of its
deliveries. -/
theorem received_once (lib : Lib) (hlib : Lawful lib) (fileBytes : Bytes) (hne : fileBytes ≠ [])
    (options : String) :
    ∀ s, ((transfers lib).lts (orderly (cut lib fileBytes options))).Reachable s →
      Once lib (cut lib fileBytes options) s := by
  intro s hr
  have hf := hlib fileBytes options hne
  have h := (inv_inductive hf).reachable s hr
  refine ⟨?_, ?_, fun t c err ht => h.unthrown ht, h.kept, h.received hf⟩
  · cases h.stage with
    | fresh session buffer unopened idle reports => rw [reports]; decide
    | collecting flags session length incomplete buffer idle reports => rw [reports]; decide
    | finishing flags session length complete t w call active works only reports =>
      rw [reports]; decide
    | finished flags session length complete r good reports idle =>
      rw [reports]; exact Nat.le_refl 1
  · intro r hr
    cases h.stage with
    | fresh session buffer unopened idle reports => rw [reports] at hr; cases hr
    | collecting flags session length incomplete buffer idle reports => rw [reports] at hr; cases hr
    | finishing flags session length complete t w call active works only reports =>
      rw [reports] at hr; cases hr
    | finished flags session length complete r' good reports idle =>
      rw [reports, List.mem_singleton] at hr
      rw [hr]
      exact good

namespace Example

open TransferCalls.Example

theorem bytes_chars (b : Bytes) : bytes (chars b) = b := by
  unfold bytes chars
  rw [String.toList_ofList, List.map_map]
  refine (List.map_congr_left fun x _ => ?_).trans (List.map_id b)
  dsimp only [Function.comp, id]
  have hvalid : x.toNat.isValidChar := .inl (by have := x.toNat_lt; omega)
  have hnat : (Char.ofNat x.toNat).toNat = x.toNat := by
    unfold Char.ofNat
    rw [dif_pos hvalid]
    rfl
  rw [hnat, UInt8.ofNat_toNat]

theorem join_chunks (transferId : String) (b : Bytes) (n : Nat) :
    join (((b.zipIdx n).map fun x => (⟨transferId, x.2, chars [x.1]⟩ : Chunk)).map some) =
      .ok b := by
  induction b generalizing n with
  | nil => rfl
  | cons x b ih =>
    rw [List.zipIdx_cons, List.map_cons, List.map_cons, join, ih (n + 1)]
    change Except.ok (bytes (chars [x]) ++ b) = _
    rw [bytes_chars]
    rfl

theorem lawful : Lawful core := by
  intro fileBytes options hne
  have hget (i : Nat) (c : Chunk) (hc : (cut core fileBytes options).chunks[i]? = some c) :
      ∃ x, fileBytes[i]? = some x ∧ c = ⟨options, i, chars [x]⟩ := by
    have hc : (fileBytes.zipIdx.map fun x => (⟨options, x.2, chars [x.1]⟩ : Chunk))[i]? = some c :=
      hc
    rw [List.getElem?_map, List.getElem?_zipIdx] at hc
    cases hx : fileBytes[i]? with
    | none =>
      rw [hx] at hc
      cases hc
    | some x =>
      rw [hx] at hc
      cases hc
      exact ⟨x, rfl, by rw [Nat.zero_add]⟩
  refine ⟨?_, ?_, fun i c hc => ?_, fun i c hc => ?_, ?_⟩
  · change (fileBytes.zipIdx.map _).length = fileBytes.length
    rw [List.length_map, List.length_zipIdx]
  · intro hnil
    have hlen := congrArg List.length hnil
    change (fileBytes.zipIdx.map _).length = 0 at hlen
    rw [List.length_map, List.length_zipIdx] at hlen
    exact hne (List.length_eq_zero_iff.mp hlen)
  · obtain ⟨x, -, rfl⟩ := hget i c hc
    exact ⟨rfl, rfl⟩
  · obtain ⟨x, hx, rfl⟩ := hget i c hc
    refine ⟨[x], congrArg Except.ok (bytes_chars [x]), ?_⟩
    change (fileBytes.map fun x => chars [x])[i]? = _
    rw [List.getElem?_map, hx]
    rfl
  · exact join_chunks options fileBytes 0

/-- The file "hi", in two chunks. -/
def hi : File := cut core file "x"

/-- The messages of `hi`, after its manifest, and a store that works. -/
def delivered (s : TransferState) (e : TransferEvent) : Bool :=
  match e.exch with
  | ⟨.run (.manifest m _) _, _⟩ => decide (m = hi.manifest)
  | ⟨.run (.chunk c _) _, _⟩ =>
    decide (c ∈ hi.chunks) && s.log.any fun e' => match Script.ran e' with
    | some (.manifest m _) => decide (m.transferId = hi.transferId)
    | _ => false
  | ⟨.run _ _, _⟩ => true
  | ⟨.await _, .ok ()⟩ => true
  | ⟨.await _, .error _⟩ => false

theorem delivered_iff {s : TransferState} {e : TransferEvent} (h : delivered s e = true) :
    (deliveries hi).ok s e := by
  unfold delivered at h
  refine ⟨fun m o hran _ => ?_, fun c o hran _ => ?_, fun o r hx => ?_⟩
  · obtain ⟨g, x, hx⟩ := Script.ran_eq_some hran
    rw [hx] at h
    exact of_decide_eq_true h
  · obtain ⟨g, x, hx⟩ := Script.ran_eq_some hran
    rw [hx] at h
    dsimp only at h
    rw [Bool.and_eq_true, decide_eq_true_iff, List.any_eq_true] at h
    obtain ⟨hc, e', he', hopened⟩ := h
    refine ⟨hc, e', he', ?_⟩
    split at hopened
    · exact ⟨_, _, ‹_›, of_decide_eq_true hopened⟩
    · cases hopened
  · rw [hx] at h
    cases r with
    | ok u => rfl
    | error err => cases h

def anyJudge : System.Judge (deliveries hi) where
  may _ _ := true
  ok := delivered
  may_iff _ _ _ := trivial
  ok_iff _ _ h := delivered_iff h

def orderlyJudge : System.Judge (orderly hi) where
  may _ _ := true
  ok s e := delivered s e && match Script.ran e, OMap.get hi.transferId s.mem.sessions with
    | some (.manifest _ _), some session => session.receivedChunks.all fun b => !b
    | some (.chunk _ _), some session => !session.isComplete
    | _, _ => true
  may_iff _ _ _ := trivial
  ok_iff s e h := by
    rw [Bool.and_eq_true] at h
    obtain ⟨hdelivered, h⟩ := h
    refine ⟨delivered_iff hdelivered, fun m o session hran _ hs b hb => ?_,
      fun c o session hran _ hs => ?_⟩
    · rw [hran, hs] at h
      exact (Bool.not_eq_true' b).mp (List.all_eq_true.mp h b hb)
    · rw [hran, hs] at h
      exact (Bool.not_eq_true' _).mp h

/-- The delivery `t` of a chunk has thrown. -/
def threwAt (t : Nat) (s : TransferState) : Bool :=
  match s.threads[t]? with
  | some ⟨⟨.chunk c, _⟩, .ret (.error _)⟩ => decide (c.transferId = hi.transferId)
  | _ => false

theorem not_once_of_threwAt {t : Nat} {s : TransferState} (h : threwAt t s = true) :
    ¬ Once core hi s := by
  intro honce
  unfold threwAt at h
  split at h
  · rename_i c o err ht
    have hid : c.transferId = hi.transferId := of_decide_eq_true h
    exact honce.unthrown t _ err ht ⟨.chunk c, rfl, hid⟩
  · cases h

/-- The last event took a chunk out of the buffer. -/
def discarded (s : TransferState) : Bool :=
  match s.log with
  | e :: _ => match e.exch with
    | ⟨.run (.manifest _ _) g, (i, m)⟩ =>
      match OMap.get hi.transferId m.sessions, OMap.get hi.transferId (g i m).sessions with
      | some session, some session' =>
        decide (session.receivedChunks[0]? = some true) &&
          decide (session'.receivedChunks[0]? = some false)
      | _, _ => false
    | _ => false
  | [] => false

theorem not_once_of_discarded {s : TransferState} (h : discarded s = true) : ¬ Once core hi s := by
  intro honce
  have hkept := honce.kept
  unfold discarded at h
  split at h
  · rename_i e older hlog
    rw [hlog] at hkept
    split at h
    · rename_i manifest o g i m hx
      split at h
      · rename_i session session' hs hs'
        rw [Bool.and_eq_true, decide_eq_true_iff, decide_eq_true_iff] at h
        obtain ⟨session'', hs'', hflag⟩ :=
          (hkept.1 _ g i m hx (.inl ⟨manifest, o, rfl⟩)).flags session 0 hs h.1
        cases hs'.symm.trans hs''
        cases h.2.symm.trans hflag
      · cases h
    · cases h
  · cases h

end Example

open TransferCalls.Example Example in
/-- The manifest comes twice, then the chunks, one of them twice. -/
theorem received_once_hi :
    ∃ s, ((transfers core).lts (orderly hi)).Reachable s ∧
      (reportsOf hi.transferId s.log).length = 1 ∧ Once core hi s := by
  obtain ⟨s, hr, hs⟩ := System.reachable_of_play (S := transfers core) orderlyJudge smooth
    [.call (sendManifest alice), .go 0 1, .call (sendManifest alice), .go 1 2,
    .call (sendChunk 1 alice), .go 2 1,
      .call (sendChunk 1 alice), .go 3 2, .call (sendChunk 0 alice), .go 4 7, .go 0 1, .go 2 1]
    (m := .new) (P := fun s => decide ((reportsOf hi.transferId s.log).length = 1)) rfl
    (by decide +kernel)
  exact ⟨s, hr, of_decide_eq_true hs, received_once core lawful file (by decide) "x" s hr⟩

open TransferCalls.Example Example in
/-- A chunk comes again after the file was received; a chunk comes again while
the file is stored; the manifest comes again after a chunk. -/
theorem received_wrong :
    (∃ s, ((transfers core).lts (deliveries hi)).Reachable s ∧ threwAt 3 s = true ∧
        ¬ Once core hi s) ∧
    (∃ s, ((transfers core).lts (deliveries hi)).Reachable s ∧
        (reportsOf hi.transferId s.log).length = 2 ∧ ¬ Once core hi s) ∧
    ∃ s, ((transfers core).lts (deliveries hi)).Reachable s ∧ discarded s = true ∧
      ¬ Once core hi s := by
  refine ⟨?_, ?_, ?_⟩
  · obtain ⟨s, hr, hs⟩ := System.reachable_of_play (S := transfers core) anyJudge smooth
      [.call (sendManifest alice), .go 0 2, .call (sendChunk 0 alice), .go 1 2,
      .call (sendChunk 1 alice), .go 2 7,
        .call (sendChunk 0 alice), .go 3 1]
      (m := .new) (P := threwAt 3) rfl (by decide +kernel)
    exact ⟨s, hr, hs, not_once_of_threwAt hs⟩
  · obtain ⟨s, hr, hs⟩ := System.reachable_of_play (S := transfers core) anyJudge smooth
      [.call (sendManifest alice), .go 0 2, .call (sendChunk 0 alice), .go 1 2,
      .call (sendChunk 1 alice), .go 2 2,
        .call (sendChunk 0 alice), .go 3 3, .go 2 5, .go 3 4]
      (m := .new) (P := fun s => decide ((reportsOf hi.transferId s.log).length = 2)) rfl
      (by decide +kernel)
    have htwo := of_decide_eq_true hs
    refine ⟨s, hr, htwo, fun honce => ?_⟩
    have hone := honce.once
    omega
  · obtain ⟨s, hr, hs⟩ := System.reachable_of_play (S := transfers core) anyJudge smooth
      [.call (sendManifest alice), .go 0 2, .call (sendChunk 0 alice), .go 1 2,
      .call (sendManifest alice), .go 2 1]
      (m := .new) (P := discarded) rfl (by decide +kernel)
    exact ⟨s, hr, hs, not_once_of_discarded hs⟩

end RezSdk.L4.TransferOnce
