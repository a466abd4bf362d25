import RezSdk.Core.Object
import RezSdk.Core.OrderedMap
import RezSdk.L1Records.Json

/-!
# Receiving files (`FileTransferService.js`)

A manifest opens a session and an empty buffer under the transfer id it names;
each chunk whose hash is the one in the manifest goes into the buffer and sets
its flag in the session. The call that sets the last flag puts the file
together, stores it and reports it.

The key-value store is a callback. The records, the chunker and the hash are
those of @rezprotocol/core (`Lib`); of a session the fields that decide what
happens are kept, its state text, its times and the reports of progress are
left out.
-/
namespace RezSdk.L3.FileTransfer

open RezSdk.L1

structure Manifest where
  transferId : String
  chunkCount : Nat
  chunkHashesHex : List String
  fileHashHex : String
deriving DecidableEq

structure Chunk where
  transferId : String
  chunkIndex : Nat
  dataB64 : String
deriving DecidableEq

/-- `FileTransferSessionV1` -/
structure Session where
  manifest : Manifest
  receivedChunks : List Bool
deriving DecidableEq

namespace Session

/-- mirrors src/filetransfer/FileTransferService.js:95-102 -/
def pending (m : Manifest) : Session := ⟨m, List.replicate m.chunkCount false⟩

def markChunkReceived (s : Session) (i : Nat) : Session :=
  { s with receivedChunks := s.receivedChunks.set i true }

def isComplete (s : Session) : Bool := s.receivedChunks.all id

end Session

/-- An array with holes. -/
abbrev Buffer := List (Option Chunk)

/-- `buffer[i] = chunk` -/
def Buffer.put (b : Buffer) (i : Nat) (c : Chunk) : Buffer :=
  (b ++ List.replicate (i + 1 - b.length) none).set i (some c)

/-- Who delivers a message, and where. -/
structure Origin where
  senderAccountId : Option String
  contextId : Option String
deriving DecidableEq

/-- What of @rezprotocol/core the service uses. -/
structure Lib where
  manifestFromJSON : Json → Except Err Manifest
  chunkFromJSON : Json → Except Err Chunk
  base64ToBytes : String → Except Err Bytes
  /-- `bytesToHex(Hash.sha256(bytes))` -/
  sha256Hex : Bytes → String
  /-- `FileChunker.chunk(fileBytes, options)` -/
  chunk : Bytes → String → Manifest × List Chunk
  /-- `FileChunker.reassemble(manifest, buffer)`, nothing for `undefined` -/
  reassemble : Manifest → Option Buffer → Except Err Bytes

structure Fields where
  sessions : List (String × Session)
  chunkBuffers : List (String × Buffer)
deriving DecidableEq

/-- What `onFileReceived` is called with. -/
structure Report where
  transferId : String
  manifest : Manifest
  fileBytes : Bytes
  origin : Origin
deriving DecidableEq

namespace Fields

def new : Fields := ⟨[], []⟩

/-- mirrors src/filetransfer/FileTransferService.js:104-105 -/
def startTransfer (s : Fields) (m : Manifest) : Fields where
  sessions := OMap.set m.transferId (.pending m) s.sessions
  chunkBuffers := OMap.set m.transferId (List.replicate m.chunkCount none) s.chunkBuffers

/-- The chunk belongs to the session. -/
def hashMatches (lib : Lib) (session : Session) (c : Chunk) : Except Err Bool := do
  let rawBytes ← lib.base64ToBytes c.dataB64
  return decide (session.manifest.chunkHashesHex[c.chunkIndex]? = some (lib.sha256Hex rawBytes))

def noBuffer (i : Nat) : Err :=
  { message := "Cannot set properties of undefined (setting '" ++ toString i ++ "')" }

/-- The updated session, if the chunk is taken.
mirrors src/filetransfer/FileTransferService.js:123-143 -/
def bufferChunk (lib : Lib) (s : Fields) (c : Chunk) : Except Err (Option Session) × Fields :=
  match OMap.get c.transferId s.sessions with
  | none => (.ok none, s)
  | some session => match hashMatches lib session c with
    | .error err => (.error err, s)
    | .ok false => (.ok none, s)
    | .ok true => match OMap.get c.transferId s.chunkBuffers with
      | none => (.error (noBuffer c.chunkIndex), s)
      | some buffer =>
        let updated := session.markChunkReceived c.chunkIndex
        (.ok (some updated),
          { sessions := OMap.set c.transferId updated s.sessions
            chunkBuffers := OMap.set c.transferId (buffer.put c.chunkIndex c) s.chunkBuffers })

/-- mirrors src/filetransfer/FileTransferService.js:161-176 -/
def putTogether (lib : Lib) (s : Fields) (transferId : String) (session : Session) :
    Except Err Bytes × Fields :=
  match lib.reassemble session.manifest (OMap.get transferId s.chunkBuffers) with
  | .ok fileBytes => (.ok fileBytes, s)
  | .error err => (.error err, { s with sessions := OMap.set transferId session s.sessions })

end Fields

/-- The stretches between two awaits. -/
inductive Stretch
  | manifest (m : Manifest) (o : Origin)
  | chunk (c : Chunk) (o : Origin)
  | reassemble (transferId : String) (session : Session) (o : Origin)
  | cleanup (transferId : String) (o : Origin)
  | report (r : Report)
deriving DecidableEq

/-- Whose delivery runs it. -/
def Stretch.origin : Stretch → Origin
  | .manifest _ o => o
  | .chunk _ o => o
  | .reassemble _ _ o => o
  | .cleanup _ o => o
  | .report r => r.origin

def Stretch.apply (lib : Lib) (s : Fields) : Stretch → Fields
  | .manifest m _ => s.startTransfer m
  | .chunk c _ => (s.bufferChunk lib c).2
  | .reassemble transferId session _ => (s.putTogether lib transferId session).2
  | .cleanup transferId _ => { s with chunkBuffers := OMap.delete transferId s.chunkBuffers }
  | .report _ => s

/-- What is written to the key-value store. -/
inductive Stored
  | session (s : Session)
  | file (fileBytes : Bytes)

inductive Outside
  | set (key : String) (value : Stored)
  | delete (key : String)

abbrev Outside.Ans : Outside → Type := fun _ => Except Err Unit

abbrev outside : Iface := ⟨Outside, Outside.Ans⟩
abbrev service : Iface := object Fields Unit Stretch outside
abbrev Receiving (α : Type) : Type := Method Fields Unit Stretch outside Err α

/-- A record, or a decoded value. -/
inductive Payload
  | manifest (m : Manifest)
  | chunk (c : Chunk)
  | value (v : Json)

inductive Message
  | manifest (m : Manifest)
  | chunk (c : Chunk)
  | other
deriving DecidableEq

/-- mirrors src/filetransfer/FileTransferService.js:75-90 -/
def Payload.message (lib : Lib) : Payload → Except Err Message
  | .manifest m => .ok (.manifest m)
  | .chunk c => .ok (.chunk c)
  | .value v => match Json.text (Json.prop "kind" (some v)) with
    | some "rez.file.manifest.v1" => (lib.manifestFromJSON v).map .manifest
    | some "rez.file.chunk.v1" => (lib.chunkFromJSON v).map .chunk
    | _ => .ok .other

section

variable (lib : Lib)

def kvSet (key : String) (value : Stored) : Receiving Unit := .ask (.await (.set key value)) .ret

def kvDelete (key : String) : Receiving Unit := .ask (.await (.delete key)) .ret

/-- mirrors src/filetransfer/FileTransferService.js:93-119 -/
def handleManifest (m : Manifest) (o : Origin) : Receiving Bool := do
  stretch (.manifest m o) fun _ s => (.ok (), s.startTransfer m)
  kvSet ("xfer:" ++ m.transferId) (.session (.pending m))
  return true

/-- mirrors src/filetransfer/FileTransferService.js:160-194 -/
def completeTransfer (transferId : String) (session : Session) (o : Origin) : Receiving Unit := do
  let outcome ← stretch (.reassemble transferId session o) fun _ s =>
    (.ok (s.putTogether lib transferId session).1, (s.putTogether lib transferId session).2)
  match outcome with
  | .error _ => kvSet ("xfer:" ++ transferId) (.session session)
  | .ok fileBytes =>
    kvSet ("file:" ++ session.manifest.fileHashHex) (.file fileBytes)
    stretch (.cleanup transferId o) fun _ s =>
      (.ok (), { s with chunkBuffers := OMap.delete transferId s.chunkBuffers })
    kvDelete ("xfer:" ++ transferId)
    stretch (.report ⟨transferId, session.manifest, fileBytes, o⟩) fun _ s => (.ok (), s)

/-- mirrors src/filetransfer/FileTransferService.js:121-158 -/
def handleChunk (c : Chunk) (o : Origin) : Receiving Bool := do
  let taken ← stretch (.chunk c o) fun _ s => s.bufferChunk lib c
  match taken with
  | none => return true
  | some updated =>
    kvSet ("xfer:" ++ c.transferId) (.session updated)
    if updated.isComplete then
      completeTransfer lib c.transferId updated o
      return true
    else return true

structure Call where
  payload : Payload
  origin : Origin

/-- mirrors src/filetransfer/FileTransferService.js:72-91 -/
def handleIncomingPayload (c : Call) : Receiving Bool :=
  match c.payload.message lib with
  | .ok (.manifest m) => handleManifest m c.origin
  | .ok (.chunk chunk) => handleChunk lib chunk c.origin
  | .ok .other => return false
  | .error err => throw err

def transfers : System service Fields (ObjFate Unit outside) Call (Except Err Bool) :=
  .ofObject .callbacks (handleIncomingPayload lib)

end

abbrev TransferState := Pool service Fields (ObjFate Unit outside) Call (Except Err Bool)
abbrev TransferRules := Discipline service Fields (ObjFate Unit outside) Call (Except Err Bool)

end RezSdk.L3.FileTransfer
