import RezSdk.Core.Framing
import RezSdk.L3Service.FrameCodec

/-!
# What arrives over TCP

The receiving side cuts a stream of bytes into frames. It is the reader of
`Core.Framing`, with the pending requests as its state. A frame's handling
throws when its type cannot be printed, or when it is the error of a pending
request and its code or message cannot be: `onData` then ends with frames still
in the buffer. A header that announces too much empties the buffer, also of
what follows that frame, and what of the frame is still to come is read as
frames.

* `onData_reader`: `onData` is the library's `feed`.
* `threw_iff`: when the handling of a frame throws.
* `received_iff`: exactly when the frames are received however they are cut.
* `unforged_iff`: exactly when no cut makes a difference, frames that are too
  large included.
-/
namespace RezSdk.L4.TcpFraming

open RezSdk.L1 RezSdk.L3 RezSdk.L3.Transports RezSdk.L3.TcpTransport RezSdk.L3.FrameCodec

/-! ## The reader -/

/-- The bytes of a chunk, with the socket they came from. -/
def tag (socket : Nat) (bytes : List UInt8) : List (UInt8 × Nat) := bytes.map fun b => (b, socket)

def untag (bytes : List (UInt8 × Nat)) : List UInt8 := bytes.map Prod.fst

theorem untag_tag (socket : Nat) (bytes : List UInt8) : untag (tag socket bytes) = bytes := by
  unfold untag tag
  rw [List.map_map]
  exact List.map_id bytes

theorem tag_append (socket : Nat) (xs ys : List UInt8) :
    tag socket (xs ++ ys) = tag socket xs ++ tag socket ys := List.map_append

theorem tag_drop (socket n : Nat) (xs : List UInt8) :
    tag socket (xs.drop n) = (tag socket xs).drop n := List.map_drop

theorem length_tag (socket : Nat) (xs : List UInt8) : (tag socket xs).length = xs.length :=
  List.length_map _

theorem tag_flatten (socket : Nat) (chunks : List (List UInt8)) :
    tag socket chunks.flatten = (chunks.map (tag socket)).flatten :=
  List.map_flatten

theorem readUInt32BE_append (xs ys : List (UInt8 × Nat)) (h : 4 ≤ xs.length) :
    readUInt32BE (xs ++ ys) = readUInt32BE xs := by
  unfold readUInt32BE
  rw [List.take_append_of_le_length h]

/-- The framing of the transport. -/
def format (maxFrameBytes : Nat) : Framing.Format (UInt8 × Nat) where
  header := 4
  size := readUInt32BE
  limit := maxFrameBytes
  header_pos := Nat.succ_pos 3
  size_append := readUInt32BE_append

/-- A frame's handling, and whether it throws.
mirrors src/transport/TcpTransport.js:235-291 -/
def processFrame (cfg : Config) (requests : Requests) (frame : List (UInt8 × Nat)) :
    Requests × Bool :=
  match cfg.decodeFrame (untag (frame.drop 4)) with
  | none => (requests, false)
  | some decoded =>
    let handled := Tcp.handle cfg.numText requests.pending decoded
    (requests.take (frame.map Prod.snd) decoded handled, threw handled.1)

abbrev Reader := Framing.Reader Requests (UInt8 × Nat)

/-- The transport with what its reader holds. -/
def withReader (s : State) (r : Reader) : State :=
  { s with readBuffer := r.buffer, requests := r.state }

theorem drain_reader (cfg : Config) (fuel : Nat) (s : State) (taken : List (List (UInt8 × Nat))) :
    drain cfg fuel s = withReader s (Framing.drain (format cfg.maxFrameBytes) (processFrame cfg)
            fuel ⟨s.readBuffer, s.requests, taken⟩) := by
  induction fuel generalizing s taken with
  | zero => rfl
  | succ fuel ih =>
    unfold drain Framing.drain
    have hnext : (format cfg.maxFrameBytes).next s.readBuffer =
        nextFrame cfg.maxFrameBytes s.readBuffer := rfl
    dsimp only
    rw [hnext]
    cases nextFrame cfg.maxFrameBytes s.readBuffer with
    | none => rfl
    | some bytes =>
      unfold processFrame Framing.Reader.take untag
      dsimp only
      have hheader : (format cfg.maxFrameBytes).header = 4 := rfl
      cases hdecode : cfg.decodeFrame ((bytes.drop 4).map Prod.fst) with
      | none =>
        dsimp only
        rw [ih _ (taken ++ [bytes.drop 4])]
        rw [if_neg Bool.false_ne_true]
        rfl
      | some frame =>
        dsimp only
        by_cases hthrew : threw (Tcp.handle cfg.numText s.requests.pending frame).1 = true
        · rw [if_pos hthrew, if_pos hthrew]
          rfl
        · rw [if_neg hthrew, if_neg hthrew, ih _ (taken ++ [bytes.drop 4])]
          rfl

/-- The state after some chunks. -/
def feeds (cfg : Config) (socket : Nat) (s : State) (chunks : List (List UInt8)) : State :=
  chunks.foldl (fun s chunk => onData cfg socket chunk s) s

/-- The reader of the transport after some chunks. -/
def reads (cfg : Config) (socket : Nat) (r : Reader) (chunks : List (List UInt8)) : Reader :=
  (chunks.map (tag socket)).foldl (Framing.feed (format cfg.maxFrameBytes) (processFrame cfg)) r

/-- The payloads that `processFrame` is called with while the chunks come. -/
def received (cfg : Config) (socket : Nat) (s : State) (chunks : List (List UInt8)) :
    List (List UInt8) :=
  (reads cfg socket ⟨s.readBuffer, s.requests, []⟩ chunks).taken.map untag

theorem onData_reader (cfg : Config) (socket : Nat) (chunk : List UInt8) (s : State)
    (taken : List (List (UInt8 × Nat))) :
    onData cfg socket chunk s = withReader s (Framing.feed (format cfg.maxFrameBytes)
            (processFrame cfg) ⟨s.readBuffer, s.requests, taken⟩ (tag socket chunk)) := by
  unfold onData
  dsimp only
  rw [drain_reader cfg _ _ taken]
  rfl

theorem feeds_reader (cfg : Config) (socket : Nat) (chunks : List (List UInt8)) (s : State)
    (taken : List (List (UInt8 × Nat))) :
    feeds cfg socket s chunks =
      withReader s (reads cfg socket ⟨s.readBuffer, s.requests, taken⟩ chunks) := by
  induction chunks generalizing s taken with
  | nil => rfl
  | cons chunk chunks ih =>
    unfold feeds reads
    rw [List.foldl_cons, List.map_cons, List.foldl_cons, onData_reader cfg socket chunk s taken]
    generalize Framing.feed (format cfg.maxFrameBytes) (processFrame cfg) ⟨s.readBuffer,
      s.requests, taken⟩ (tag socket chunk) = r
    exact ih (withReader s r) r.taken

/-! ## Frames as they are written -/

theorem readUInt32BE_written {n : Nat} {header : List UInt8} (h : writeUInt32BE n = some header)
    (socket : Nat) (rest : List (UInt8 × Nat)) : readUInt32BE (tag socket header ++ rest) = n := by
  unfold writeUInt32BE at h
  split at h
  · rename_i hlt
    cases h
    simp only [readUInt32BE, tag, List.map_cons, List.map_nil, List.cons_append,
      List.nil_append, List.take_succ_cons,
      List.take_zero, List.foldl_cons, List.foldl_nil, UInt8.toNat_ofNat']
    omega
  · cases h

theorem length_writeUInt32BE {n : Nat} {header : List UInt8} (h : writeUInt32BE n = some header) :
    header.length = 4 := by
  unfold writeUInt32BE at h
  split at h
  · cases h
    rfl
  · cases h

variable {cfg : Config} {socket : Nat} {payload frame : List UInt8}
  {payloads frames : List (List UInt8)}

theorem writeFrame_header (h : writeFrame payload = some frame) :
    ∃ header, writeUInt32BE payload.length = some header ∧ frame = header ++ payload := by
  obtain ⟨header, hheader, heq⟩ := Option.map_eq_some_iff.mp h
  exact ⟨header, hheader, heq.symm⟩

theorem size_written (socket : Nat) (h : writeFrame payload = some frame)
    (rest : List (UInt8 × Nat)) : readUInt32BE (tag socket frame ++ rest) = payload.length := by
  obtain ⟨header, hheader, rfl⟩ := writeFrame_header h
  rw [tag_append, List.append_assoc]
  exact readUInt32BE_written hheader socket _

theorem drop_written (h : writeFrame payload = some frame) : frame.drop 4 = payload := by
  obtain ⟨header, hheader, rfl⟩ := writeFrame_header h
  have hlen := length_writeUInt32BE hheader
  rw [← hlen, List.drop_left]

theorem length_written (h : writeFrame payload = some frame) :
    frame.length = 4 + payload.length := by
  obtain ⟨header, hheader, rfl⟩ := writeFrame_header h
  rw [List.length_append, length_writeUInt32BE hheader]

theorem whole_written (h : writeFrame payload = some frame)
    (hle : payload.length ≤ cfg.maxFrameBytes) :
    (format cfg.maxFrameBytes).Whole (tag socket frame) := by
  have hsize := size_written socket h []
  rw [List.append_nil] at hsize
  refine ⟨?_, ?_⟩
  · exact hsize.trans_le hle
  · rw [length_tag, length_written h]
    exact congrArg (4 + ·) hsize.symm

theorem oversized_written (h : writeFrame payload = some frame)
    (hlt : cfg.maxFrameBytes < payload.length) (rest : List (UInt8 × Nat)) :
    (format cfg.maxFrameBytes).Oversized (tag socket frame ++ rest) := by
  refine ⟨?_, ?_⟩
  · rw [List.length_append, length_tag, length_written h]
    exact le_trans (Nat.le_add_right 4 _) (Nat.le_add_right _ _)
  · exact hlt.trans_eq (size_written socket h rest).symm

/-- What a list of payloads is written as. -/
def Written (payloads frames : List (List UInt8)) : Prop :=
  List.Forall₂ (fun payload frame => writeFrame payload = some frame) payloads frames

def frameOf (payload : List UInt8) : List UInt8 := (writeFrame payload).getD []

theorem written_of_lt (h : payload.length < 2 ^ 32) :
    writeFrame payload = some (frameOf payload) := by
  unfold frameOf writeFrame writeUInt32BE
  rw [if_pos h]
  rfl

theorem written_map (h : Written payloads frames) :
    frames = payloads.map frameOf ∧
    ∀ payload ∈ payloads, writeFrame payload = some (frameOf payload) := by
  induction h with
  | nil => exact ⟨rfl, fun _ h => by cases h⟩
  | @cons payload frame payloads frames hone _ ih =>
    have hframe : frameOf payload = frame := by
      unfold frameOf
      rw [hone]
      rfl
    refine ⟨?_, ?_⟩
    · rw [List.map_cons, hframe, ← ih.1]
    · intro p hp
      rcases List.mem_cons.mp hp with rfl | hp
      · rw [hframe]
        exact hone
      · exact ih.2 p hp

/-! ## When the handling of a frame throws -/

theorem handle_cases (numText : JsNumber → String) (pending : Table) (decoded : Option Json) :
    (∃ id entry, frameId decoded = some id ∧ OMap.get id pending = some entry ∧
      Tcp.handle numText pending decoded =
        (settle entry.promise
          (if frameType decoded = some "error"
            then (Tcp.remoteError numText decoded).map .error
            else answer numText id entry decoded),
          OMap.delete id pending)) ∨
    (∀ id, frameId decoded = some id → OMap.get id pending = none) ∧
      Tcp.handle numText pending decoded = (unsolicited numText decoded, pending) := by
  unfold Tcp.handle
  split
  · rename_i id entry hfound
    obtain ⟨hid, hget⟩ := find_entry hfound
    exact .inl ⟨id, entry, hid, hget, rfl⟩
  · rename_i hnone
    refine .inr ⟨fun id hid => ?_, rfl⟩
    rw [hid, Option.bind_some, Option.map_eq_none_iff] at hnone
    exact hnone

theorem threw_settle (promise : Nat) (outcome : Option (Except TransportError Response)) :
    threw (settle promise outcome) = true ↔ outcome = none := by
  cases outcome with
  | none => exact ⟨fun _ => rfl, fun _ => rfl⟩
  | some outcome => exact ⟨(by cases ·), (by cases ·)⟩

theorem threw_unsolicited (numText : JsNumber → String) (decoded : Option Json) :
    threw (unsolicited numText decoded) = true ↔ typeText numText decoded = none := by
  unfold unsolicited
  split
  · rename_i t ht
    rw [ht]
    exact ⟨(by cases ·), (by cases ·)⟩
  · rename_i ht
    exact ⟨fun _ => ht, fun _ => rfl⟩

theorem threw_handle (numText : JsNumber → String) (pending : Table) (decoded : Option Json) :
    threw (Tcp.handle numText pending decoded).1 = true ↔ typeText numText decoded = none ∨
      frameType decoded = some "error" ∧ Tcp.remoteError numText decoded = none ∧
        ∃ id, frameId decoded = some id ∧ (OMap.get id pending).isSome := by
  rcases handle_cases numText pending decoded with ⟨id, entry, hid, hget, heq⟩ | ⟨hnone, heq⟩
  · rw [heq]
    dsimp only
    rw [threw_settle]
    by_cases herror : frameType decoded = some "error"
    · have htype := typeText_of numText herror
      rw [if_pos herror, Option.map_eq_none_iff, htype]
      refine ⟨fun h => .inr ⟨herror, h, id, hid, Option.isSome_iff_exists.mpr ⟨entry, hget⟩⟩, ?_⟩
      rintro (h | h)
      · cases h
      · exact h.2.1
    · rw [if_neg herror]
      unfold answer
      rw [Option.map_eq_none_iff]
      exact ⟨.inl, fun h => h.resolve_right fun h => herror h.1⟩
  · rw [heq]
    dsimp only
    rw [threw_unsolicited]
    refine ⟨.inl, fun h => h.resolve_right ?_⟩
    rintro ⟨-, -, id, hid, hsome⟩
    rw [hnone id hid] at hsome
    cases hsome

theorem threw_processFrame (r : Requests) (frame : List (UInt8 × Nat)) :
    (processFrame cfg r frame).2 = true ↔
    ∃ decoded, cfg.decodeFrame (untag (frame.drop 4)) = some decoded ∧
      threw (Tcp.handle cfg.numText r.pending decoded).1 = true := by
  unfold processFrame
  cases cfg.decodeFrame (untag (frame.drop 4)) with
  | none =>
    refine ⟨(by cases ·), ?_⟩
    rintro ⟨_, h, -⟩
    cases h
  | some decoded =>
    refine ⟨fun h => ⟨decoded, rfl, h⟩, ?_⟩
    rintro ⟨_, ⟨⟩, h⟩
    exact h

theorem pending_take (sockets : List Nat) (numText : JsNumber → String) (r : Requests)
    (decoded : Option Json) (id : String) :
    (OMap.get id (r.take sockets decoded (Tcp.handle numText r.pending decoded)).pending).isSome ↔
    (OMap.get id r.pending).isSome ∧ frameId decoded ≠ some id := by
  rcases handle_cases numText r.pending decoded with ⟨id', entry, hid, hget, heq⟩ | ⟨hnone, heq⟩
  · have hpending (o : Option (Except TransportError Response)) (t : Table) :
        (r.take sockets decoded (settle entry.promise o, t)).pending = t := by cases o <;> rfl
    rw [heq, hpending, OMap.get_delete, hid, ne_eq, Option.some.injEq]
    split
    · rename_i hsame
      exact ⟨(by cases ·), fun h => absurd hsame h.2⟩
    · rename_i hne
      exact ⟨fun h => ⟨h, hne⟩, And.left⟩
  · have hpending :
        (r.take sockets decoded (unsolicited numText decoded, r.pending)).pending = r.pending := by
      rcases unsolicited_cases numText decoded with ⟨payload, h⟩ | h <;> rw [h] <;> rfl
    rw [heq, hpending]
    refine ⟨fun h => ⟨h, fun hid => ?_⟩, And.left⟩
    rw [hnone id hid] at h
    cases h

/-- The requests that wait after some frames: those that none of them has
answered. -/
theorem pending_handled (cfg : Config) (frames : List (List (UInt8 × Nat))) (r : Requests)
    (id : String) :
    (OMap.get id (Framing.handled (processFrame cfg) r frames).pending).isSome ↔
    (OMap.get id r.pending).isSome ∧
    ∀ frame ∈ frames, ∀ decoded, cfg.decodeFrame (untag (frame.drop 4)) = some decoded →
      frameId decoded ≠ some id := by
  induction frames generalizing r with
  | nil => exact ⟨fun h => ⟨h, fun _ hm => by cases hm⟩, And.left⟩
  | cons frame frames ih =>
    have hcons : Framing.handled (processFrame cfg) r (frame :: frames) =
      Framing.handled (processFrame cfg) (processFrame cfg r frame).1 frames := rfl
    rw [hcons, ih, List.forall_mem_cons, ← and_assoc]
    refine and_congr_left fun _ => ?_
    unfold processFrame
    cases cfg.decodeFrame (untag (frame.drop 4)) with
    | none => exact ⟨fun h => ⟨h, fun _ hd => by cases hd⟩, And.left⟩
    | some decoded =>
      dsimp only
      rw [pending_take]
      refine and_congr_right fun _ => ⟨?_, fun h => h decoded rfl⟩
      rintro h _ ⟨⟩
      exact h

/-- The payload is one whose handling throws when it comes after `before`: its
type cannot be printed, or it is the error of a request that still waits, and
its code or message cannot be. -/
def Breaks (cfg : Config) (pending : Table) (before : List (List UInt8)) (payload : List UInt8) :
    Prop :=
  ∃ decoded, cfg.decodeFrame payload = some decoded ∧ (typeText cfg.numText decoded = none ∨
    frameType decoded = some "error" ∧ Tcp.remoteError cfg.numText decoded = none ∧
      ∃ id, frameId decoded = some id ∧ (OMap.get id pending).isSome ∧
        ∀ p ∈ before, ∀ earlier, cfg.decodeFrame p = some earlier → frameId earlier ≠ some id)

/-- No payload but the last is one whose handling throws. -/
def LastOnly (cfg : Config) (pending : Table) (payloads : List (List UInt8)) : Prop :=
  ∀ before payload after, payloads = before ++ payload :: after → after ≠ [] →
  ¬Breaks cfg pending before payload

theorem after_nil {p : List UInt8} {before after : List (List UInt8)}
    (h : [p] = before ++ payload :: after) : after = [] := by
  rcases List.singleton_eq_append_iff.mp h with ⟨-, hcons⟩ | ⟨-, hnil⟩
  · exact (List.cons.inj hcons).2
  · cases hnil

theorem threw_iff (cfg : Config) (socket : Nat) (r : Requests) {before : List (List UInt8)}
    (hbefore : ∀ p ∈ before, writeFrame p = some (frameOf p))
    (hwritten : writeFrame payload = some (frameOf payload)) :
    (processFrame cfg
        (Framing.handled (processFrame cfg) r (before.map fun p => tag socket (frameOf p)))
        (tag socket (frameOf payload))).2 =
      true ↔
    Breaks cfg r.pending before payload := by
  have hpayload (p : List UInt8) (hp : writeFrame p = some (frameOf p)) :
      untag ((tag socket (frameOf p)).drop 4) = p := by
    rw [← tag_drop, untag_tag, drop_written hp]
  have hearlier (id : String) : (∀ frame ∈ before.map fun p => tag socket (frameOf p), ∀ decoded,
      cfg.decodeFrame (untag (frame.drop 4)) = some decoded → frameId decoded ≠ some id) ↔
      ∀ p ∈ before, ∀ earlier, cfg.decodeFrame p = some earlier → frameId earlier ≠ some id := by
    rw [List.forall_mem_map]
    refine forall₂_congr fun p hp => ?_
    rw [hpayload p (hbefore p hp)]
  unfold Breaks
  rw [threw_processFrame, hpayload payload hwritten]
  simp only [threw_handle, pending_handled, hearlier]

theorem calm_written (cfg : Config) (socket : Nat) (r : Requests)
    (hwritten : ∀ payload ∈ payloads, writeFrame payload = some (frameOf payload)) :
    Framing.Calm (processFrame cfg) r (payloads.map fun p => tag socket (frameOf p)) ↔
    LastOnly cfg r.pending payloads := by
  have hthrew {before after : List (List UInt8)} {payload : List UInt8}
      (hsplit : payloads = before ++ payload :: after) :=
    threw_iff cfg socket r
      (fun p hp => hwritten p (by rw [hsplit]; exact List.mem_append_left _ hp))
      (hwritten payload (by rw [hsplit]; simp))
  rw [Framing.calm_iff]
  constructor
  · intro h before payload after hsplit hafter hbreaks
    have hquiet := h (before.map fun p => tag socket (frameOf p)) (tag socket (frameOf payload))
      (after.map fun p => tag socket (frameOf p)) (by rw [hsplit, List.map_append, List.map_cons])
      (fun hnil => hafter (List.map_eq_nil_iff.mp hnil))
    rw [(hthrew hsplit).mpr hbreaks] at hquiet
    cases hquiet
  · intro h before frame after hsplit hafter
    obtain ⟨before', tail', hsplit', rfl, htail⟩ := List.map_eq_append_iff.mp hsplit
    obtain ⟨payload, after', rfl, rfl, rfl⟩ := List.map_eq_cons_iff.mp htail
    rw [← Bool.not_eq_true, hthrew hsplit']
    exact h before' payload after' hsplit' (fun hnil => hafter (by rw [hnil]; rfl))

/-! ## The results -/

theorem map_untag (hwritten : ∀ payload ∈ payloads, writeFrame payload = some (frameOf payload)) :
    ((payloads.map fun p => tag socket (frameOf p)).map (List.drop 4)).map untag = payloads := by
  rw [List.map_map, List.map_map]
  refine (List.map_congr_left fun p hp => ?_).trans (List.map_id payloads)
  dsimp only [Function.comp_apply]
  rw [← tag_drop, untag_tag, drop_written (hwritten p hp)]
  rfl

theorem flatten_written (chunks : List (List UInt8))
    (h : chunks.flatten = (payloads.map frameOf).flatten) :
    (chunks.map (tag socket)).flatten = (payloads.map fun p => tag socket (frameOf p)).flatten := by
  rw [← tag_flatten, h, tag_flatten, List.map_map]
  rfl

theorem whole_all (socket : Nat)
    (hwritten : ∀ payload ∈ payloads, writeFrame payload = some (frameOf payload))
    (hfit : ∀ payload ∈ payloads, payload.length ≤ cfg.maxFrameBytes) :
    ∀ frame ∈ payloads.map fun p => tag socket (frameOf p),
      (format cfg.maxFrameBytes).Whole frame := by
  intro frame hframe
  obtain ⟨p, hp, rfl⟩ := List.mem_map.mp hframe
  exact whole_written (hwritten p hp) (hfit p hp)

theorem length_received (s : State) (chunks : List (List UInt8)) :
    (received cfg socket s chunks).length =
      (reads cfg socket ⟨s.readBuffer, s.requests, []⟩ chunks).taken.length := List.length_map _

/-- A stream that is received in one piece is calm. -/
theorem calm_of_one (socket : Nat) {s : State} {frames : List (List (UInt8 × Nat))}
    (tail : List (UInt8 × Nat)) {chunk : List UInt8}
    (hwhole : ∀ frame ∈ frames, (format cfg.maxFrameBytes).Whole frame) (hempty : s.readBuffer = [])
    (hchunk : tag socket chunk = frames.flatten ++ tail)
    (hall : frames.length ≤ (received cfg socket s [chunk]).length) :
    Framing.Calm (processFrame cfg) s.requests frames := by
  rw [length_received] at hall
  refine Framing.calm_of_all (r := ⟨s.readBuffer ++ tag socket chunk, s.requests, []⟩)
    tail hwhole ?_ ((Nat.zero_add _).trans_le hall)
  rw [hempty, hchunk, List.nil_append]

theorem received_calm (socket : Nat) {s : State}
    (hwritten : ∀ payload ∈ payloads, writeFrame payload = some (frameOf payload))
    (hfit : ∀ payload ∈ payloads, payload.length ≤ cfg.maxFrameBytes) (hempty : s.readBuffer = []) :
    (∀ chunks : List (List UInt8), chunks.flatten = (payloads.map frameOf).flatten →
        received cfg socket s chunks = payloads ∧ (feeds cfg socket s chunks).readBuffer = []) ↔
    LastOnly cfg s.requests.pending payloads := by
  have hwhole := whole_all socket hwritten hfit
  rw [← calm_written cfg socket s.requests hwritten]
  constructor
  · intro h
    have hone := (h [(payloads.map frameOf).flatten] (List.append_nil _)).1
    have hpiece : tag socket (payloads.map frameOf).flatten =
        (payloads.map fun p => tag socket (frameOf p)).flatten ++ [] := by
      rw [List.append_nil, ← flatten_written [(payloads.map frameOf).flatten] (List.append_nil _)]
      exact (List.append_nil _).symm
    refine calm_of_one socket [] hwhole hempty hpiece ?_
    rw [hone, List.length_map]
  · intro hcalm chunks hchunks
    obtain ⟨htaken, hbuffer⟩ :=
      Framing.delivered_all ⟨s.readBuffer, s.requests, []⟩ hwhole hempty hcalm
      (flatten_written chunks hchunks)
    refine ⟨?_, ?_⟩
    · refine (congrArg (List.map untag) htaken).trans ?_
      exact map_untag hwritten
    · rw [feeds_reader cfg socket chunks s []]
      exact hbuffer

/-- What came of the frames: all of them were received, in order and once, the
buffer is empty, and they are decoded to what was encoded. -/
structure RoundTrip (text : Text) (cfg : Config) (socket : Nat) (s : State)
    (frames : List Frame) (chunks : List (List UInt8)) : Prop where
  received : received cfg socket s chunks = frames.map (FrameCodec.payload text)
  buffer : (feeds cfg socket s chunks).readBuffer = []
  decoded : ∀ frame ∈ frames, decodeFrame text (FrameCodec.payload text frame) = .ok (decoded frame)

/-- **Exactly when the frames are received however their bytes are cut**: no
frame but the last is one whose handling throws. -/
theorem received_iff (text : Text) (keepAlives : Bool) (maxFrameBytes : Nat)
    (numText : JsNumber → String) (socket : Nat) (s : State) (frames : List Frame)
    (bytes : List (List UInt8)) (hempty : s.readBuffer = [])
    (hfit : ∀ frame ∈ frames, (FrameCodec.payload text frame).length ≤ maxFrameBytes)
    (hcarries : ∀ frame ∈ frames, text.Carries frame)
    (hwritten : Written (frames.map (FrameCodec.payload text)) bytes) :
    (∀ chunks : List (List UInt8), chunks.flatten = bytes.flatten →
        RoundTrip text (config text keepAlives maxFrameBytes numText) socket s frames chunks) ↔
    LastOnly (config text keepAlives maxFrameBytes numText) s.requests.pending
      (frames.map (FrameCodec.payload text)) := by
  obtain ⟨rfl, hwrites⟩ := written_map hwritten
  rw [← received_calm socket hwrites (List.forall_mem_map.mpr hfit) hempty]
  refine forall₂_congr fun chunks hchunks => ⟨fun h => ⟨h.received, h.buffer⟩,
    fun h => ⟨h.1, h.2, fun frame hframe => ?_⟩⟩
  exact decode_encode (hcarries frame hframe)

namespace Example

def ascii (text : String) : List UInt8 := text.toList.map fun c => .ofNat c.toNat

/-- The error of a request, with a code that is no text. -/
def unreadable : Frame := ⟨some "echo:0:1", "error",
      some (.obj [("code", .obj [("toString", .num (.fin 0))])]), some (.fin 1)⟩

def news : Frame := ⟨none, "news", none, none⟩

def unreadableText : List UInt8 :=
  ascii "\x7b\"id\":\"echo:0:1\",\"t\":\"error\",\"v\":1," ++
    ascii "\"body\":\x7b\"code\":\x7b\"toString\":0\x7d\x7d\x7d"
def newsText : List UInt8 := ascii "\x7b\"id\":\"\",\"t\":\"news\",\"v\":2,\"body\":\x7b\x7d\x7d"

/-- What the language does with these two frames. -/
def text : Text where
  stringify value := if Json.text (Json.prop "t" (some value)) = some "error"
    then unreadableText else newsText
  parse bytes :=
    if bytes = unreadableText then .ok (encodeFrame unreadable)
    else if bytes = newsText then .ok (encodeFrame news) else .error .badFrame

def jsonConfig : Config := config text false 1024 Transports.Example.numText

/-- A transport that is connected and has one request pending. -/
def transport : State :=
  { init with
    sockets := [⟨false, false, true, .returned, 1, 1⟩]
    socket := some 0
    isUp := true
    requests := Requests.init.sendRequest (some 0) ⟨"echo", none, 0, true, true⟩ }

def bytesOf (frames : List Frame) : List (List UInt8) :=
  frames.map fun frame => frameOf (FrameCodec.payload text frame)

theorem texts :
    FrameCodec.payload text unreadable = unreadableText ∧ FrameCodec.payload text news = newsText ∧
    unreadableText.length = 66 ∧ newsText.length = 36 := by
  decide +kernel

theorem payload_unreadable : FrameCodec.payload text unreadable = unreadableText := texts.1
theorem payload_news : FrameCodec.payload text news = newsText := texts.2.1
theorem length_unreadable : unreadableText.length = 66 := texts.2.2.1
theorem length_news : newsText.length = 36 := texts.2.2.2

theorem carries_unreadable : text.Carries unreadable := by
  refine (congrArg text.parse payload_unreadable).trans ?_
  unfold text
  dsimp only
  rw [if_pos rfl]

theorem carries_news : text.Carries news := by
  have hother : newsText ≠ unreadableText := fun h => by
    have hlen := congrArg List.length h
    rw [length_news, length_unreadable] at hlen
    omega
  refine (congrArg text.parse payload_news).trans ?_
  unfold text
  dsimp only
  rw [if_neg hother, if_pos rfl]

theorem not_breaks_news (pending : Table) (before : List (List UInt8)) :
    ¬Breaks jsonConfig pending before (FrameCodec.payload text news) := by
  rintro ⟨value, hvalue, hbad⟩
  have hdecode :
      jsonConfig.decodeFrame (FrameCodec.payload text news) = some (some (decoded news)) := by
    unfold jsonConfig config
    dsimp only
    rw [decode_encode carries_news]
    rfl
  have heq : value = some (decoded news) := Option.some.inj (hvalue.symm.trans hdecode)
  subst heq
  rcases hbad with htype | ⟨herror, -⟩
  · exact absurd htype (by decide)
  · exact absurd herror (by decide)

theorem written_news :
    writeFrame (FrameCodec.payload text news) = some (frameOf (FrameCodec.payload text news)) := by
  rw [payload_news]
  exact written_of_lt (by rw [length_news]; omega)

theorem written_unreadable :
    writeFrame (FrameCodec.payload text unreadable) =
      some (frameOf (FrameCodec.payload text unreadable)) := by
  rw [payload_unreadable]
  exact written_of_lt (by rw [length_unreadable]; omega)

end Example

open Example in
/-- Two frames in one piece: the first is the error of a pending request with a
code that is no text, and the second stays in the buffer. -/
theorem left_in_buffer :
    text.Carries unreadable ∧ text.Carries news ∧
    Written ([unreadable, news].map (FrameCodec.payload text)) (bytesOf [unreadable, news]) ∧
    received jsonConfig 0 transport [(bytesOf [unreadable, news]).flatten] =
      [FrameCodec.payload text unreadable] ∧
    ¬∀ chunks : List (List UInt8), chunks.flatten = (bytesOf [unreadable, news]).flatten →
    RoundTrip text jsonConfig 0 transport [unreadable, news] chunks := by
  have hone : received jsonConfig 0 transport [(bytesOf [unreadable, news]).flatten] =
      [FrameCodec.payload text unreadable] := by
    decide +kernel
  refine ⟨carries_unreadable, carries_news, .cons written_unreadable (.cons written_news .nil),
    hone, fun h => ?_⟩
  have hall := (h [(bytesOf [unreadable, news]).flatten] (List.append_nil _)).received
  rw [hone] at hall
  cases hall

open Example in
/-- The same two frames the other way round. -/
theorem received_news_first :
    Written ([news, unreadable].map (FrameCodec.payload text)) (bytesOf [news, unreadable]) ∧
    ∀ chunks : List (List UInt8), chunks.flatten = (bytesOf [news, unreadable]).flatten →
      RoundTrip text jsonConfig 0 transport [news, unreadable] chunks := by
  have hfit : ∀ frame ∈ [news, unreadable], (FrameCodec.payload text frame).length ≤ 1024 := by
    rintro frame (_ | ⟨_, _ | ⟨_, h⟩⟩)
    · rw [payload_news, length_news]
      omega
    · rw [payload_unreadable, length_unreadable]
      omega
    · cases h
  have hcarries : ∀ frame ∈ [news, unreadable], text.Carries frame := by
    rintro frame (_ | ⟨_, _ | ⟨_, h⟩⟩)
    · exact carries_news
    · exact carries_unreadable
    · cases h
  have hwritten :
      Written ([news, unreadable].map (FrameCodec.payload text)) (bytesOf [news, unreadable]) :=
    .cons written_news (.cons written_unreadable .nil)
  refine ⟨hwritten,
    (received_iff text false 1024 Transports.Example.numText 0 transport [news, unreadable]
    (bytesOf [news, unreadable]) rfl hfit hcarries hwritten).mpr ?_⟩
  intro before payload after hsplit hafter
  cases before with
  | nil =>
    cases hsplit
    exact not_breaks_news _ []
  | cons first before =>
    exact absurd (after_nil (List.cons.inj hsplit).2) hafter

/-! ## Frames that are too large -/

/-- The payloads before the first that is too large. -/
def fitting (cfg : Config) (payloads : List (List UInt8)) : List (List UInt8) :=
  payloads.takeWhile fun payload => payload.length ≤ cfg.maxFrameBytes

/-- What is written from the first payload on that is too large. -/
def oversizedRest (cfg : Config) (payloads bytes : List (List UInt8)) : List UInt8 :=
  (bytes.drop (fitting cfg payloads).length).flatten

/-- The rest is empty, or starts with a header that announces too much. -/
theorem rest_cases (cfg : Config) (socket : Nat)
    (hwritten : ∀ payload ∈ payloads, writeFrame payload = some (frameOf payload)) :
    ∃ rest, payloads = fitting cfg payloads ++ rest ∧
      oversizedRest cfg payloads (payloads.map frameOf) = (rest.map frameOf).flatten ∧
      (rest = [] ∨
        (format cfg.maxFrameBytes).Oversized (tag socket (rest.map frameOf).flatten)) := by
  refine ⟨payloads.dropWhile fun payload => payload.length ≤ cfg.maxFrameBytes,
    (List.takeWhile_append_dropWhile).symm, ?_, ?_⟩
  · unfold oversizedRest
    rw [← List.map_drop]
    congr 2
    nth_rewrite 2 [← List.takeWhile_append_dropWhile (p := fun payload =>
      decide (payload.length ≤ cfg.maxFrameBytes)) (l := payloads)]
    exact List.drop_left
  · cases hrest : payloads.dropWhile fun payload => payload.length ≤ cfg.maxFrameBytes with
    | nil => exact .inl rfl
    | cons payload rest =>
      have hhead := List.head?_dropWhile_not (fun payload : List UInt8 =>
          decide (payload.length ≤ cfg.maxFrameBytes)) payloads
      rw [hrest] at hhead
      have hlt : cfg.maxFrameBytes < payload.length := by simpa using hhead
      have hmem : payload ∈ payloads :=
        (List.dropWhile_suffix _).subset
        (show payload ∈ payloads.dropWhile _ by rw [hrest]; exact List.mem_cons_self)
      refine .inr ?_
      rw [List.map_cons, List.flatten_cons, tag_append]
      exact oversized_written (hwritten payload hmem) hlt _

theorem reads_append (r : Reader) (xs ys : List (List UInt8)) :
    reads cfg socket r (xs ++ ys) = reads cfg socket (reads cfg socket r xs) ys := by
  unfold reads
  rw [List.map_append, List.foldl_append]

/-- What is received frame by frame. -/
theorem reads_each {r : Reader}
    (hwritten : ∀ payload ∈ payloads, writeFrame payload = some (frameOf payload))
    (hfit : ∀ payload ∈ payloads, payload.length ≤ cfg.maxFrameBytes) (hempty : r.buffer = []) :
    (reads cfg socket r (payloads.map frameOf)).taken.length =
      r.taken.length + payloads.length := by
  obtain ⟨htaken, -⟩ :=
    Framing.delivered_each (processFrame cfg) (whole_all socket hwritten hfit) hempty
  unfold reads
  rw [List.map_map]
  have hsame : (tag socket ∘ frameOf) = fun p => tag socket (frameOf p) := rfl
  rw [hsame, htaken, List.length_append, List.length_map, List.length_map]

theorem le_reads (r : Reader) (chunks : List (List UInt8)) :
    r.taken.length ≤ (reads cfg socket r chunks).taken.length :=
  Framing.taken_feeds _ _

/-- Cut once more after its header, the rest gives a frame that is not received
when it comes in one piece. -/
theorem reads_rest {r : Reader} {rest : List UInt8} {e : Nat} {found : List (UInt8 × Nat)}
    (hempty : r.buffer = []) (hover : (format cfg.maxFrameBytes).Oversized (tag socket rest))
    (he : 4 ≤ e) (hfound : nextFrame cfg.maxFrameBytes (tag socket (rest.drop e)) = some found) :
    (reads cfg socket r [rest]).taken.length <
      (reads cfg socket r [rest.take e, rest.drop e]).taken.length := by
  obtain ⟨hwhole, -⟩ := Framing.taken_feed_none (processFrame cfg) hempty hover.next
  have hhead : (format cfg.maxFrameBytes).Oversized (tag socket (rest.take e)) := by
    have htake : tag socket (rest.take e) = (tag socket rest).take e := List.map_take
    rw [htake]
    exact hover.take he
  obtain ⟨htaken, hcleared⟩ := Framing.taken_feed_none (processFrame cfg) hempty hhead.next
  have hbuffer := hcleared hhead
  have hone : (reads cfg socket r [rest]).taken = r.taken := hwhole
  rw [hone]
  unfold reads
  rw [List.map_cons, List.map_cons, List.map_nil, List.foldl_cons, List.foldl_cons, List.foldl_nil]
  generalize Framing.feed (format cfg.maxFrameBytes) (processFrame cfg) r
    (tag socket (rest.take e)) = r' at htaken hbuffer
  rw [← htaken]
  have hnext : (format cfg.maxFrameBytes).next (r'.buffer ++ tag socket (rest.drop e)) =
      some found := by
    rw [hbuffer]
    exact hfound
  exact Framing.taken_settle_lt (r := { r' with buffer := r'.buffer ++ tag socket (rest.drop e) })
    hnext

/-- **Exactly when the way the bytes are cut makes no difference**, frames that
are too large included: before the first such frame no frame but the last is
one whose handling throws, and in what is written from it on no whole frame
can be read anywhere after its header. -/
theorem unforged_iff (cfg : Config) (socket : Nat) (s : State) (payloads bytes : List (List UInt8))
    (hempty : s.readBuffer = []) (hwritten : Written payloads bytes) :
    ((∀ chunks : List (List UInt8), chunks.flatten = bytes.flatten →
          (received cfg socket s chunks).Sublist payloads) ∧
      ∀ chunks chunks' : List (List UInt8), chunks.flatten = bytes.flatten →
        chunks'.flatten = bytes.flatten →
        received cfg socket s chunks = received cfg socket s chunks') ↔
    LastOnly cfg s.requests.pending (fitting cfg payloads) ∧
    ∀ e, 4 ≤ e →
      nextFrame cfg.maxFrameBytes (tag socket ((oversizedRest cfg payloads bytes).drop e)) =
        none := by
  obtain ⟨rfl, hwrites⟩ := written_map hwritten
  obtain ⟨rest, hsplit, hrest, hover⟩ := rest_cases cfg socket hwrites
  have hgood :
      ∀ payload ∈ fitting cfg payloads, writeFrame payload = some (frameOf payload) := fun p hp =>
    hwrites p ((List.takeWhile_prefix _).subset hp)
  have hfit : ∀ payload ∈ fitting cfg payloads, payload.length ≤ cfg.maxFrameBytes := fun p hp => by
    simpa using List.mem_takeWhile_imp hp
  have hwhole := whole_all socket hgood hfit
  have hstream : (payloads.map frameOf).flatten = ((fitting cfg payloads).map frameOf).flatten ++
      (rest.map frameOf).flatten := by
    nth_rewrite 1 [hsplit]
    rw [List.map_append, List.flatten_append]
  rw [hrest, ← calm_written cfg socket s.requests hgood]
  have hcut (chunks : List (List UInt8)) (h : chunks.flatten = (payloads.map frameOf).flatten) :
      (chunks.map (tag socket)).flatten =
      ((fitting cfg payloads).map fun p => tag socket (frameOf p)).flatten ++
      tag socket (rest.map frameOf).flatten := by
    rw [← tag_flatten, h, hstream, tag_append, tag_flatten, List.map_map]
    rfl
  have hnone : (format cfg.maxFrameBytes).next (tag socket (rest.map frameOf).flatten) = none := by
    rcases hover with rfl | hover
    · exact Framing.Format.next_nil
    · exact hover.next
  constructor
  · rintro ⟨-, hsame⟩
    have hlength (chunks chunks' : List (List UInt8))
        (h : chunks.flatten = (payloads.map frameOf).flatten)
        (h' : chunks'.flatten = (payloads.map frameOf).flatten) :
        (reads cfg socket ⟨s.readBuffer, s.requests, []⟩ chunks).taken.length =
          (reads cfg socket ⟨s.readBuffer, s.requests, []⟩ chunks').taken.length := by
      rw [← length_received, ← length_received, hsame chunks chunks' h h']
    -- frame by frame all of them are received, so they are in one piece as well
    have hcalm : Framing.Calm (processFrame cfg) s.requests
        ((fitting cfg payloads).map fun p => tag socket (frameOf p)) := by
      refine calm_of_one socket (tag socket (rest.map frameOf).flatten) hwhole hempty
        ((List.append_nil _).symm.trans
        (hcut [(payloads.map frameOf).flatten] (List.append_nil _))) ?_
      have heach : ((fitting cfg payloads).map frameOf ++ [(rest.map frameOf).flatten]).flatten =
          (payloads.map frameOf).flatten := by
        rw [hstream, List.flatten_append]
        congr 1
        exact List.append_nil _
      rw [length_received, hlength _ _ (List.append_nil _) heach, reads_append, List.length_map]
      refine le_trans ?_ (le_reads _ _)
      rw [reads_each hgood hfit hempty]
      exact (Nat.zero_add _).symm.le
    refine ⟨hcalm, fun e he => ?_⟩
    cases hfound : nextFrame cfg.maxFrameBytes (tag socket ((rest.map frameOf).flatten.drop e)) with
    | none => rfl
    | some found =>
      rcases hover with rfl | hover
      · rw [List.map_nil, List.flatten_nil, List.drop_nil] at hfound
        cases hfound
      · -- after the frames the rest comes in one piece, or in two
        have hall := Framing.delivered_all ⟨s.readBuffer, s.requests, []⟩ hwhole hempty hcalm
          (flatten_written [((fitting cfg payloads).map frameOf).flatten] (List.append_nil _))
        have hlt := reads_rest (r := reads cfg socket ⟨s.readBuffer, s.requests,
            []⟩ [((fitting cfg payloads).map frameOf).flatten])
          hall.2 hover he hfound
        rw [← reads_append, ← reads_append, hlength _ _ ?_ ?_] at hlt
        · exact absurd hlt (lt_irrefl _)
        · rw [hstream]
          simp
        · rw [hstream]
          simp
  · rintro ⟨hcalm, hdead⟩
    have hreceived (chunks : List (List UInt8))
        (h : chunks.flatten = (payloads.map frameOf).flatten) :
        received cfg socket s chunks = fitting cfg payloads := by
      have htail (e : Nat) (he : e = 0 ∨ 4 ≤ e) :
          (format cfg.maxFrameBytes).next
            ((tag socket (rest.map frameOf).flatten).drop e) = none := by
        rcases he with rfl | he
        · exact hnone
        · rw [← tag_drop]
          exact hdead e he
      obtain ⟨htaken, -⟩ := Framing.delivered_tail ⟨s.readBuffer, s.requests,
        []⟩ hwhole htail hempty hcalm (hcut chunks h)
      refine (congrArg (List.map untag) htaken).trans ?_
      exact map_untag hgood
    refine ⟨fun chunks h => ?_,
      fun chunks chunks' h h' => (hreceived chunks h).trans (hreceived chunks' h').symm⟩
    rw [hreceived chunks h]
    exact List.takeWhile_sublist _

namespace Example

/-- One byte too many, the last four of them zero. -/
def tooLarge : List UInt8 := List.replicate 1021 97 ++ [0, 0, 0, 0]

theorem length_tooLarge : tooLarge.length = 1025 := by
  rw [tooLarge, List.length_append, List.length_replicate]
  rfl

/-- As much too long, and a letter throughout. -/
def letters : List UInt8 := List.replicate 1025 97

/-- Four letters announce more than any frame has. -/
theorem nextFrame_letters (n : Nat) : nextFrame 1024 (tag 0 (List.replicate n 97)) = none := by
  rcases Nat.lt_or_ge n 4 with hlt | hge
  · refine if_pos (.inl ?_)
    rw [length_tag, List.length_replicate]
    exact hlt
  · obtain ⟨k, rfl⟩ := Nat.exists_eq_add_of_le' hge
    have hsize : (format 1024).size (tag 0 (List.replicate (k + 4) 97)) = 1633771873 := rfl
    have hover : (format 1024).Oversized (tag 0 (List.replicate (k + 4) 97)) :=
      ⟨Nat.le_add_left 4 _, hsize ▸ by decide⟩
    exact hover.next

end Example

open Example in
/-- In one piece neither frame is received. Cut twice, an empty frame is, that
nobody has written, and so is the second. -/
theorem forged :
    Written [tooLarge, newsText] [frameOf tooLarge, frameOf newsText] ∧
    received jsonConfig 0 transport [frameOf tooLarge ++ frameOf newsText] = [] ∧
    received jsonConfig 0 transport
      [(frameOf tooLarge).take 1025, (frameOf tooLarge).drop 1025, frameOf newsText] =
      [[], newsText] ∧
    ¬((∀ chunks : List (List UInt8), chunks.flatten = [frameOf tooLarge, frameOf newsText].flatten →
          (received jsonConfig 0 transport chunks).Sublist [tooLarge, newsText]) ∧
      ∀ chunks chunks' : List (List UInt8),
        chunks.flatten = [frameOf tooLarge, frameOf newsText].flatten →
        chunks'.flatten = [frameOf tooLarge, frameOf newsText].flatten →
        received jsonConfig 0 transport chunks = received jsonConfig 0 transport chunks') := by
  obtain ⟨hwhole, hcut⟩ :
    received jsonConfig 0 transport [frameOf tooLarge ++ frameOf newsText] = [] ∧
      received jsonConfig 0 transport [(frameOf tooLarge).take 1025, (frameOf tooLarge).drop 1025,
        frameOf newsText] =
        [[], newsText] := by
    decide +kernel
  have hlong : tooLarge.length < 2 ^ 32 := by rw [length_tooLarge]; omega
  have hshort : newsText.length < 2 ^ 32 := by rw [length_news]; omega
  refine ⟨.cons (written_of_lt hlong) (.cons (written_of_lt hshort) .nil), hwhole,
    hcut, fun h => ?_⟩
  have hflat : [(frameOf tooLarge).take 1025, (frameOf tooLarge).drop 1025,
      frameOf newsText].flatten =
      [frameOf tooLarge, frameOf newsText].flatten := by
    rw [List.flatten_cons, List.flatten_cons, ← List.append_assoc, List.take_append_drop,
      ← List.flatten_cons]
  have hsub :=
    h.1 [(frameOf tooLarge).take 1025, (frameOf tooLarge).drop 1025, frameOf newsText] hflat
  rw [hcut] at hsub
  obtain hlarge | hmem := List.mem_cons.mp (hsub.subset List.mem_cons_self)
  · cases (congrArg List.length hlarge).trans length_tooLarge
  · cases (congrArg List.length (List.mem_singleton.mp hmem)).trans length_news

open Example in
/-- Two frames, and one that is too large and has no frame inside. -/
theorem unforged_news :
    (∀ chunks : List (List UInt8),
        chunks.flatten = [frameOf newsText, frameOf newsText, frameOf letters].flatten →
        (received jsonConfig 0 transport chunks).Sublist [newsText, newsText, letters]) ∧
    ∀ chunks chunks' : List (List UInt8),
      chunks.flatten = [frameOf newsText, frameOf newsText, frameOf letters].flatten →
      chunks'.flatten = [frameOf newsText, frameOf newsText, frameOf letters].flatten →
      received jsonConfig 0 transport chunks = received jsonConfig 0 transport chunks' := by
  have hshort : writeFrame newsText = some (frameOf newsText) :=
    written_of_lt (by rw [length_news]; omega)
  have hlong : writeFrame letters = some (frameOf letters) :=
    written_of_lt (by rw [letters, List.length_replicate]; omega)
  have hfit : fitting jsonConfig [newsText, newsText, letters] = [newsText, newsText] := by
    decide +kernel
  refine (unforged_iff jsonConfig 0 transport [newsText, newsText, letters] [frameOf newsText,
    frameOf newsText, frameOf letters]
    rfl (.cons hshort (.cons hshort (.cons hlong .nil)))).mpr ⟨?_, fun e he => ?_⟩
  · rw [hfit]
    intro before payload after hsplit hafter
    cases before with
    | nil =>
      cases hsplit
      exact payload_news ▸ not_breaks_news _ []
    | cons first before => exact absurd (after_nil (List.cons.inj hsplit).2) hafter
  · have hrest : oversizedRest jsonConfig [newsText, newsText, letters] [frameOf newsText,
        frameOf newsText, frameOf letters] =
        frameOf letters := by
      rw [oversizedRest, hfit]
      exact List.append_nil _
    obtain ⟨k, rfl⟩ := Nat.exists_eq_add_of_le he
    rw [hrest, ← List.drop_drop, drop_written hlong, letters, List.drop_replicate]
    exact nextFrame_letters _

end RezSdk.L4.TcpFraming
