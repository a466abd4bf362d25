import RezSdk.Core.Script
import RezSdk.L3Service.FileTransfers

/-!
# The calls of the file transfer service

`Watch` says where a delivery stands: the session it has updated, or the file
it has put together and is about to report.

* `obeys_run`: what every delivery does, stretch by stretch.
* `Always`: what holds of every event and what came before it.
* `bufferChunk_cases`: what taking a chunk does.
-/
namespace RezSdk.L4.TransferCalls

open RezSdk.L1 RezSdk.L3.FileTransfer

abbrev TransferEvent := Event service (ObjFate Unit outside)

variable {lib : Lib}

inductive Watch
  | idle (c : Call)
  /-- has taken a chunk -/
  | taken (transferId : String) (updated : Session) (o : Origin)
  /-- has put the file together -/
  | whole (r : Report)
  /-- has dropped the buffer -/
  | cleaned (r : Report)
  | ended
  /-- a chunk could not be taken -/
  | threw
  /-- the key-value store has failed -/
  | failed

def Legal (lib : Lib) : Watch → Stretch → Prop
  | .idle c, .manifest m o => c.payload.message lib = .ok (.manifest m) ∧ o = c.origin
  | .idle c, .chunk chunk o => c.payload.message lib = .ok (.chunk chunk) ∧ o = c.origin
  | .taken transferId updated o, .reassemble transferId' session o' =>
    transferId' = transferId ∧ session = updated ∧ o' = o ∧
      updated.isComplete = true
  | .whole r, .cleanup transferId o => transferId = r.transferId ∧ o = r.origin
  | .cleaned r, .report r' => r' = r
  | _, _ => False

def follow (lib : Lib) (w : Watch) (s : Fields) : Stretch → Watch
  | .manifest _ _ => .ended
  | .chunk c o => match (s.bufferChunk lib c).1 with
    | .ok (some updated) => .taken c.transferId updated o
    | .ok none => .ended
    | .error _ => .threw
  | .reassemble transferId session o => match (s.putTogether lib transferId session).1 with
    | .ok fileBytes => .whole ⟨transferId, session.manifest, fileBytes, o⟩
    | .error _ => .ended
  | .cleanup _ _ => match w with
    | .whole r => .cleaned r
    | _ => .ended
  | .report _ => .ended

def script (lib : Lib) : Script Fields Unit Stretch outside Watch where
  apply l _ s := l.apply lib s
  legal := Legal lib
  follow w _ s l := follow lib w s l
  asks _ _ := True
  hears w _ r := match r with
    | .ok () => w
    | .error _ => .failed

/-- Where a delivery of a chunk goes on. -/
def chunkWatch (transferId : String) (o : Origin) : Except Err (Option Session) → Watch
  | .ok (some updated) => .taken transferId updated o
  | .ok none => .ended
  | .error _ => .threw

theorem follow_chunk (lib : Lib) (w : Watch) (s : Fields) (c : Chunk) (o : Origin) :
    follow lib w s (.chunk c o) = chunkWatch c.transferId o (s.bufferChunk lib c).1 := rfl

theorem follow_whole {s : Fields} {transferId : String} {session : Session} {fileBytes : Bytes}
    (h : (s.putTogether lib transferId session).1 = .ok fileBytes) (w : Watch) (o : Origin) :
    follow lib w s (.reassemble transferId session o) =
      .whole ⟨transferId, session.manifest, fileBytes, o⟩ := by
  rw [follow, h]

theorem follow_ended {s : Fields} {transferId : String} {session : Session} {err : Err}
    (h : (s.putTogether lib transferId session).1 = .error err) (w : Watch) (o : Origin) :
    follow lib w s (.reassemble transferId session o) = .ended := by
  rw [follow, h]

/-- How a delivery ends. -/
def Ends (lib : Lib) (c : Call) (w : Watch) : Except Err Bool → Prop
  | .error err => w = .failed ∨ w = .threw ∨ w = .idle c ∧ c.payload.message lib = .error err
  | .ok _ =>
    w = .ended ∨
      (∃ transferId updated o, w = .taken transferId updated o ∧ updated.isComplete = false) ∨
      w = .idle c ∧ c.payload.message lib = .ok .other

abbrev watch (lib : Lib) : TransferState → Nat → Option Watch := (script lib).view .idle

abbrev Conforms (lib : Lib) : TransferState → Prop :=
  System.Conforms (script lib).monitor (fun _ => True) .idle (Ends lib)

/-! ## The calls obey -/

section

variable {α : Type} {Q : Watch → Except Err α → Prop} {w : Watch}

theorem obeys_kv {o : Outside} {f : Unit → Receiving α} (herror : ∀ err, Q .failed (.error err))
    (hok : Obeys (script lib).monitor (fun _ => True) Q w (f ())) :
    Obeys (script lib).monitor (fun _ => True) Q w
      ((.ask (.await o) .ret : Receiving Unit) >>= f : Receiving α) := by
  refine obeys_js_bind ⟨trivial, fun x _ => ?_⟩
  match x with
  | .ok () => exact hok
  | .error err => exact herror err

end

theorem obeys_manifest {c : Call} {m : Manifest} (hm : c.payload.message lib = .ok (.manifest m)) :
    Obeys (script lib).monitor (fun _ => True) (Ends lib c) (.idle c)
      (handleManifest m c.origin) := by
  refine obeys_js_bind ⟨⟨rfl, hm, rfl⟩, fun x _ => ?_⟩
  exact obeys_kv (fun err => .inl rfl) (.inl rfl)

theorem obeys_complete {c : Call} {transferId : String} {session : Session} {o : Origin}
    (hcomplete : session.isComplete = true) {f : Unit → Receiving Bool}
    (hf : ∀ u, Obeys (script lib).monitor (fun _ => True) (Ends lib c) .ended (f u)) :
    Obeys (script lib).monitor (fun _ => True) (Ends lib c) (.taken transferId session o)
      (completeTransfer lib transferId session o >>= f : Receiving Bool) := by
  refine obeys_js_bind (obeys_js_bind ⟨⟨rfl, rfl, rfl, rfl, hcomplete⟩, fun x _ => ?_⟩)
  change Obeys _ _ _
      (follow lib (.taken transferId session o) x.2 (.reassemble transferId session o)) _
  cases hput : (x.2.putTogether lib transferId session).1 with
  | error err =>
    rw [follow_ended hput]
    dsimp only [Goes]
    rw [hput]
    refine ⟨trivial, fun r _ => ?_⟩
    rcases r with err | u
    · exact .inl rfl
    · exact hf u
  | ok fileBytes =>
    rw [follow_whole hput]
    dsimp only [Goes]
    rw [hput]
    refine obeys_kv (fun err => .inl rfl) (obeys_js_bind ⟨⟨rfl, rfl, rfl⟩, fun y _ => ?_⟩)
    refine obeys_kv (fun err => .inl rfl) ⟨⟨rfl, rfl⟩, fun y _ => ?_⟩
    exact hf ()

theorem obeys_chunk {c : Call} {chunk : Chunk} (hm : c.payload.message lib = .ok (.chunk chunk)) :
    Obeys (script lib).monitor (fun _ => True) (Ends lib c) (.idle c)
      (handleChunk lib chunk c.origin) := by
  refine obeys_js_bind ⟨⟨rfl, hm, rfl⟩, fun x _ => ?_⟩
  change Goes _ _ _ _ (match (x.2.bufferChunk lib chunk).1 with
    | .ok (some updated) => Watch.taken chunk.transferId updated c.origin
    | .ok none => Watch.ended
    | .error _ => Watch.threw) (x.2.bufferChunk lib chunk).1
  match (x.2.bufferChunk lib chunk).1 with
  | .error err => exact .inr (.inl rfl)
  | .ok none => exact .inl rfl
  | .ok (some updated) =>
    refine obeys_kv (fun err => .inl rfl) ?_
    cases hcomplete : updated.isComplete with
    | true => exact obeys_complete hcomplete fun _ => .inl rfl
    | false => exact .inr (.inl ⟨_, updated, _, rfl, hcomplete⟩)

theorem obeys_run (c : Call) :
    Obeys (script lib).monitor (fun _ => True) (Ends lib c) (.idle c)
      (handleIncomingPayload lib c) := by
  unfold handleIncomingPayload
  split
  · exact obeys_manifest ‹_›
  · exact obeys_chunk ‹_›
  · exact .inr (.inr ⟨rfl, ‹_›⟩)
  · exact .inr (.inr ⟨rfl, ‹_›⟩)

/-! ## What one event does -/

/-- Of every event and what came before it. -/
def Always (P : TransferEvent → List TransferEvent → Prop) : List TransferEvent → Prop
  | [] => True
  | e :: older => P e older ∧ Always P older

section

variable {s : Fields} {c : Chunk}

/-- The chunk is for a session that expects it. -/
def Expected (lib : Lib) (s : Fields) (c : Chunk) : Prop :=
  ∃ session, OMap.get c.transferId s.sessions = some session ∧
  Fields.hashMatches lib session c = .ok true

inductive Buffered (lib : Lib) (s : Fields) (c : Chunk) : Except Err (Option Session) × Fields →
    Prop
  | ignored (out : Except Err (Option Session)) (not : ∀ updated, out ≠ .ok (some updated))
      (why : ∀ err, out = .error err → ∃ session, OMap.get c.transferId s.sessions = some session ∧
        (Fields.hashMatches lib session c = .error err ∨
        OMap.get c.transferId s.chunkBuffers = none)) : Buffered lib s c (out, s)
  | taken (session : Session) (buffer : Buffer)
      (hs : OMap.get c.transferId s.sessions = some session)
      (hmatch : Fields.hashMatches lib session c = .ok true)
      (hb : OMap.get c.transferId s.chunkBuffers = some buffer) :
      Buffered lib s c (.ok (some (session.markChunkReceived c.chunkIndex)),
        { sessions := OMap.set c.transferId (session.markChunkReceived c.chunkIndex) s.sessions
          chunkBuffers := OMap.set c.transferId (buffer.put c.chunkIndex c) s.chunkBuffers })

theorem bufferChunk_cases : Buffered lib s c (s.bufferChunk lib c) := by
  unfold Fields.bufferChunk
  split
  · exact .ignored _ nofun nofun
  · rename_i session hs
    split
    · rename_i err herr
      refine .ignored _ nofun fun err' h => ?_
      cases h
      exact ⟨session, hs, .inl herr⟩
    · exact .ignored _ nofun nofun
    · rename_i hmatch
      split
      · rename_i hb
        exact .ignored _ nofun fun err' h => ⟨session, hs, .inr hb⟩
      · rename_i buffer hb
        exact .taken session buffer hs hmatch hb

theorem mem_put {b : Buffer} {i : Nat} {x : Chunk} (h : some x ∈ b.put i c) :
    x = c ∨ some x ∈ b := by
  unfold Buffer.put at h
  rcases List.mem_or_eq_of_mem_set h with hmem | heq
  · rcases List.mem_append.mp hmem with hmem | hmem
    · exact .inr hmem
    · cases List.eq_of_mem_replicate hmem
  · exact .inl (Option.some.inj heq)

end

namespace Example

/-- One character a byte. -/
def chars (b : Bytes) : String := .ofList (b.map fun x => Char.ofNat x.toNat)
def bytes (s : String) : Bytes := s.toList.map fun c => UInt8.ofNat c.toNat

def missing : Err := { message := "missing chunk" }

def join : Buffer → Except Err Bytes
  | [] => .ok []
  | none :: _ => .error missing
  | some c :: b => (join b).map (bytes c.dataB64 ++ ·)

/-- Every byte is a chunk, and its own hash. -/
def core : Lib where
  manifestFromJSON _ := .error { message := "invalid manifest" }
  chunkFromJSON _ := .error { message := "invalid chunk" }
  base64ToBytes s := .ok (bytes s)
  sha256Hex := chars
  chunk fileBytes transferId :=
    (⟨transferId, fileBytes.length, fileBytes.map fun x => chars [x], chars fileBytes⟩,
      fileBytes.zipIdx.map fun x => ⟨transferId, x.2, chars [x.1]⟩)
  reassemble _
    | some b => join b
    | none => .error missing

def file : Bytes := [104, 105]

def alice : Origin := ⟨some "acct:alice", some "ctx-1"⟩
def mallory : Origin := ⟨some "acct:mallory", some "ctx-2"⟩

def sendManifest (o : Origin) : Call := ⟨.manifest (core.chunk file "x").1, o⟩
def sendChunk (i : Nat) (o : Origin) : Call :=
  ⟨.chunk ((core.chunk file "x").2.getD i ⟨"", 0, ""⟩), o⟩

/-- The key-value store works. -/
def smooth : Nat → service.Op → ObjFate Unit outside :=
  fun _ _ => { input := (), answer := fun _ => some (.ok ()) }

end Example

end RezSdk.L4.TransferCalls
