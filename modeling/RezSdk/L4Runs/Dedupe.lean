import Mathlib.Data.List.Nodup
import RezSdk.L3Service.InboundFrames

/-!
# Duplicate suppression of inbound frames

Two frames are copies of each other when they have the same type and the same
identity. The handler's key is made of the identity alone (`keyOf`), so a frame
is also suppressed when one of another type but the same identity came first.

* `once_iff`: in every run within the limits and without a hash collision, the
  handlers get exactly one frame for each type and identity that was handled,
  if and only if no two of these frames share an identity under two types.
* `type_lost`: two events with an empty body and different types, of which the
  second is lost.
-/
namespace RezSdk.L4.Dedupe

open RezSdk.L1 RezSdk.L3.Inbound

/-! ## Identities -/

/-- The server message id, else the packet id, else the payload's bytes, else
the body (in canonical form). -/
inductive Identity
  | server (id : String)
  | packet (id : String)
  | payload (bytes : Bytes)
  | body (stable : String)
deriving DecidableEq

/-- The bytes of the payload, if there are any. -/
def payloadBytes (lib : Lib) (body : Json) : Bytes :=
  match extractBase64Payload body with
  | some b64 => safeBase64ToBytes lib b64
  | none => []

theorem payloadBytes_none {lib : Lib} {body : Json} (h : extractBase64Payload body = none) :
    payloadBytes lib body = [] := by
  unfold payloadBytes
  rw [h]

theorem payloadBytes_some {lib : Lib} {body : Json} {b64 : String}
    (h : extractBase64Payload body = some b64) :
    payloadBytes lib body = safeBase64ToBytes lib b64 := by
  unfold payloadBytes
  rw [h]

def identity (lib : Lib) (frame : Json) : Identity :=
  match serverMsgId (frameBody frame), packetId (frameBody frame),
    payloadBytes lib (frameBody frame) with
  | some id, _, _ => .server id
  | none, some id, _ => .packet id
  | none, none, b :: bs => .payload (b :: bs)
  | none, none, [] => .body (lib.stableJson (frameBody frame))

/-- The payload of a frame without an id is over the size limit. -/
def oversized (frame : Json) : Bool :=
  (serverMsgId (frameBody frame)).isNone && (packetId (frameBody frame)).isNone &&
    (extractBase64Payload (frameBody frame)).any fun b64 =>
    maxDedupeHashBytes < estimateBase64Bytes b64

def keyOf (lib : Lib) : Identity → String
  | .server id => "s:" ++ id
  | .packet id => "p:" ++ id
  | .payload bytes => "h:" ++ lib.sha256Hex bytes
  | .body stable => "j:" ++ lib.sha256Hex (utf8 stable)

/-- The bytes that are hashed. -/
def Identity.hashed : Identity → Option Bytes
  | .payload bytes => some bytes
  | .body stable => some (utf8 stable)
  | _ => none

/-- The frames that were handed to the handlers, newest first. -/
def framesOf : List Emission → List Json
  | [] => []
  | ⟨_, .frame f⟩ :: es => f :: framesOf es
  | _ :: es => framesOf es

/-- The frame's handling has come to its end. -/
def Handled (s : FrameState) (f : Json) : Prop :=
  (frameType f).isSome = true ∧
  ∃ (t : Nat) (d : Delivery) (x : Except Empty Unit), s.threads[t]? = some ⟨d, .ret x⟩ ∧ d.frame = f

/-- The emissions of one type and identity. -/
def copies (lib : Lib) (t : String) (id : Identity) (es : List Emission) : List Json :=
  (framesOf (es.filter fun e => e.type = t)).filter fun f => identity lib f = id

/-- One emission for each type and identity that was handled, and not more than
one for any. -/
structure Once (lib : Lib) (s : FrameState) : Prop where
  atMost : ∀ t id, (copies lib t id s.mem.emitted).length ≤ 1
  atLeast : ∀ f, Handled s f → ∀ t, frameType f = some t →
    copies lib t (identity lib f) s.mem.emitted ≠ []

/-- Within the flood limits, and no frame without an id is too large. -/
def withinLimits : FrameRules where
  init s := s = .new
  may _ d := oversized d.frame = false
  ok _ e :=
    match e.exch with
    | ⟨.run .arrive _, (i, _)⟩ => i.allow = true
    | _ => True

/-! ## One frame -/

abbrev Exch := Proc.Exch inbound

/-- The frame is `frame`; it has been emitted or suppressed once `settled`. -/
structure Watch where
  frame : Json
  settled : Bool

def monitor (lib : Lib) : Monitor inbound Watch where
  next
    | w, ⟨.run .settle _, _⟩ => { w with settled := true }
    | w, _ => w
  may w
    | .run .settle g => w.settled = false ∧ ∃ t, frameType w.frame = some t ∧
        g = fun _ s => s.settle (keyOf lib (identity lib w.frame)) t w.frame
    | .run .arrive g => w.settled = false ∧ ∀ i s, i.allow = true → g i s = s
    | .run .drop _ => False
    | .await _ => w.settled = false

def Lawful (lib : Lib) : Exch → Prop
  | ⟨.run .arrive _, (i, _)⟩ => i.allow = true
  | ⟨.await (.sha256 bytes), hex⟩ => hex = lib.sha256Hex bytes
  | _ => True

section

variable {lib : Lib} {frame : Json}

theorem obeys_sha256Hex {bytes : Bytes} {Q : Watch → Except Empty String → Prop} {w : Watch}
    (hw : w.settled = false) (hq : Q w (.ok (lib.sha256Hex bytes))) :
    Obeys (monitor lib) (Lawful lib) Q w (sha256Hex bytes) := by
  refine ⟨hw, fun hex hl => ?_⟩
  have hl : hex = lib.sha256Hex bytes := hl
  subst hl
  exact hq

/-- The decision is the key of the frame's identity. -/
theorem obeys_dedupeDecision (hsize : oversized frame = false)
    {Q : Watch → Except Empty Decision → Prop} {w : Watch} (hw : w.settled = false)
    (hq : Q w (.ok (.key (keyOf lib (identity lib frame))))) :
    Obeys (monitor lib) (Lawful lib) Q w (dedupeDecision lib frame) := by
  unfold dedupeDecision
  dsimp only
  unfold identity at hq
  unfold oversized at hsize
  cases hserver : serverMsgId (frameBody frame) with
  | some id =>
    rw [hserver] at hq
    exact hq
  | none =>
    rw [hserver] at hq hsize
    cases hpacket : packetId (frameBody frame) with
    | some id =>
      rw [hpacket] at hq
      exact hq
    | none =>
      rw [hpacket] at hq hsize
      cases hb64 : extractBase64Payload (frameBody frame) with
      | none =>
        rw [payloadBytes_none hb64] at hq
        exact obeys_js_bind (obeys_sha256Hex hw hq)
      | some b64 =>
        rw [payloadBytes_some hb64] at hq
        rw [hb64] at hsize
        have hfits : ¬ maxDedupeHashBytes < estimateBase64Bytes b64 := by simpa using hsize
        dsimp only
        rw [if_neg hfits]
        cases hbytes : safeBase64ToBytes lib b64 with
        | nil =>
          rw [hbytes] at hq
          exact obeys_js_bind (obeys_sha256Hex hw hq)
        | cons b bs =>
          rw [hbytes] at hq
          exact obeys_js_bind (obeys_sha256Hex hw hq)

theorem arrive_allowed {i : Input} {s : Gate} (h : i.allow = true) :
    s.arrive i = (some i.nowMs, s) := by
  unfold Gate.arrive
  rw [h]
  rfl

/-- A frame with a type ends settled. -/
theorem obeys_onInboundFrame (hsize : oversized frame = false) :
    Obeys (monitor lib) (Lawful lib) (fun w _ => (frameType frame).isSome = true → w.settled = true)
      ⟨frame, false⟩ (onInboundFrame lib frame) := by
  unfold onInboundFrame
  cases htype : frameType frame with
  | none => exact fun h => nomatch h
  | some t =>
    refine obeys_js_bind ⟨⟨rfl, fun i s hi => ?_⟩, fun x hl => ?_⟩
    · dsimp only
      rw [arrive_allowed hi]
    · obtain ⟨i, s⟩ := x
      have hi : i.allow = true := hl
      dsimp only [Obeys, Goes]
      rw [arrive_allowed hi]
      refine obeys_js_bind (obeys_dedupeDecision hsize rfl ?_)
      exact ⟨⟨rfl, t, htype, rfl⟩, fun _ _ _ => rfl⟩

end

/-! ## All frames -/

abbrev watching (d : Delivery) : Watch := ⟨d.frame, false⟩

theorem frame_mon {lib : Lib} {f : Json} {t : Nat}
    {log : List (Event inbound (ObjFate Input digests))} :
    (Pool.mon (monitor lib) ⟨f, false⟩ t log).frame = f := by
  induction log with
  | nil => rfl
  | cons e log ih =>
    by_cases ht : e.tid = t
    · subst ht
      rw [Pool.mon_self]
      generalize Pool.mon (monitor lib) ⟨f, false⟩ e.tid log = w at ih
      obtain ⟨t, op, ans, fate⟩ := e
      cases op with
      | run l g => cases l <;> exact ih
      | await o => exact ih
    · rw [Pool.mon_other ht, ih]

/-- The frame was emitted or suppressed. -/
def Settled (lib : Lib) (s : FrameState) (f : Json) : Prop :=
  ∃ (t : Nat) (d : Delivery) (p : Proc inbound (Except Empty Unit)), s.threads[t]? = some ⟨d, p⟩ ∧
  d.frame = f ∧
    (Pool.mon (monitor lib) (watching d) t s.log).settled = true

abbrev Conforms (lib : Lib) : FrameState → Prop :=
  System.Conforms (monitor lib) (Lawful lib) watching fun d w _ =>
    (frameType d.frame).isSome = true → w.settled = true

structure Inv (lib : Lib) (s : FrameState) : Prop where
  conforms : Conforms lib s
  marked : s.mem.dedupe = (framesOf s.mem.emitted).map fun f => keyOf lib (identity lib f)
  nodup : s.mem.dedupe.Nodup
  typed : ∀ e ∈ s.mem.emitted, ∀ f, e.payload = .frame f → frameType f = some e.type
  emitted : ∀ f ∈ framesOf s.mem.emitted, Settled lib s f
  settled : ∀ f, Settled lib s f → (frameType f).isSome = true ∧
    keyOf lib (identity lib f) ∈ s.mem.dedupe

section

variable {lib : Lib} {s s' : FrameState} {e : Event inbound (ObjFate Input digests)} {d : Delivery}
  {k : inbound.Ans e.op → Proc inbound (Except Empty Unit)}

theorem Inv.init : Inv lib ⟨.new, [], []⟩ where
  conforms := System.conforms_init _
  marked := rfl
  nodup := List.nodup_nil
  typed e he := absurd he List.not_mem_nil
  emitted f hf := absurd hf List.not_mem_nil
  settled f := by
    rintro ⟨t, d, p, ht, -⟩
    simp at ht

theorem Inv.spawn (h : Inv lib s) (hsize : oversized d.frame = false) :
    Inv lib (s.spawn (frames lib) d) where
  conforms := System.conforms_spawn h.conforms (obeys_onInboundFrame hsize)
  marked := h.marked
  nodup := h.nodup
  typed := h.typed
  emitted f hf := by
    obtain ⟨t, d', p, ht, hd', hsettled⟩ := h.emitted f hf
    exact ⟨t, d', p, Pool.spawn_thread ht, hd', hsettled⟩
  settled f := by
    rintro ⟨t, d', p, ht, hd', hsettled⟩
    by_cases hlt : t < s.threads.length
    · rw [Pool.spawn_lt hlt] at ht
      exact h.settled f ⟨t, d', p, ht, hd', hsettled⟩
    · -- a new call has settled nothing
      change (Pool.mon (monitor lib) (watching d') t s.log).settled = true at hsettled
      have hnone : ∀ e ∈ s.log, e.tid ≠ t := by
        intro e he heq
        exact hlt (heq ▸ h.conforms.tids e he)
      rw [Pool.mon_start hnone] at hsettled
      cases hsettled

/-- Only its own last stretch settles a frame. -/
theorem settled_fires (hf : Pool.Fires (frames lib) s e d k s') (f : Json) :
    Settled lib s' f ↔
    Settled lib s f ∨
    (d.frame = f ∧
      ((monitor lib).next (Pool.mon (monitor lib) (watching d) e.tid s.log) e.exch).settled =
        true) := by
  obtain ⟨hlt, -⟩ := List.getElem?_eq_some_iff.mp hf.thread
  have hkeep : ∀ w : Watch, w.settled = true → ((monitor lib).next w e.exch).settled = true := by
    intro w hw
    obtain ⟨t, op, ans, fate⟩ := e
    cases op with
    | run l g => cases l <;> first | exact hw | rfl
    | await o => exact hw
  constructor
  · rintro ⟨t, d', p, ht, hd', hsettled⟩
    rw [hf.log] at hsettled
    by_cases hself : e.tid = t
    · subst hself
      rw [hf.threads, List.getElem?_set_self hlt, Option.some.injEq, Thread.mk.injEq] at ht
      obtain ⟨rfl, rfl⟩ := ht
      rw [Pool.mon_self] at hsettled
      exact .inr ⟨hd', hsettled⟩
    · rw [hf.threads, List.getElem?_set_ne hself] at ht
      rw [Pool.mon_other hself] at hsettled
      exact .inl ⟨t, d', p, ht, hd', hsettled⟩
  · rintro (⟨t, d', p, ht, hd', hsettled⟩ | ⟨hd', hsettled⟩)
    · obtain ⟨p', hp'⟩ := hf.call ht
      refine ⟨t, d', p', hp', hd', ?_⟩
      rw [hf.log]
      by_cases hself : e.tid = t
      · subst hself
        rw [Pool.mon_self]
        exact hkeep _ hsettled
      · rw [Pool.mon_other hself]
        exact hsettled
    · refine ⟨e.tid, d, k e.ans, ?_, hd', ?_⟩
      · rw [hf.threads, List.getElem?_set_self hlt]
      · rw [hf.log, Pool.mon_self]
        exact hsettled

/-- An event that leaves the pool's fields and its frame as they are. -/
theorem Inv.still (h : Inv lib s) (hf : Pool.Fires (frames lib) s e d k s') (hl : Lawful lib e.exch)
    (hmem : s'.mem = s.mem)
    (hnext : (monitor lib).next (Pool.mon (monitor lib) (watching d) e.tid s.log) e.exch =
        Pool.mon (monitor lib) (watching d) e.tid s.log) : Inv lib s' := by
  have hsettled : ∀ f, Settled lib s' f ↔ Settled lib s f := by
    intro f
    rw [settled_fires hf, hnext]
    constructor
    · rintro (hs | ⟨hd, hs⟩)
      · exact hs
      · exact ⟨e.tid, d, _, hf.thread, hd, hs⟩
    · exact .inl
  refine ⟨System.conforms_fires h.conforms hf hl, ?_, ?_, ?_, fun f hf' => ?_, fun f hs => ?_⟩
  · rw [hmem]; exact h.marked
  · rw [hmem]; exact h.nodup
  · rw [hmem]; exact h.typed
  · rw [hmem] at hf'
    exact (hsettled f).mpr (h.emitted f hf')
  · rw [hmem]
    exact h.settled f ((hsettled f).mp hs)

/-- The last stretch of a frame. -/
theorem Inv.settle (h : Inv lib s) (hf : Pool.Fires (frames lib) s e d k s')
    (hl : Lawful lib e.exch) {t : String} (htype : frameType d.frame = some t)
    (hmem : s'.mem = s.mem.settle (keyOf lib (identity lib d.frame)) t d.frame)
    (hnext : ((monitor lib).next (Pool.mon (monitor lib) (watching d) e.tid s.log) e.exch).settled =
        true) : Inv lib s' := by
  have hself : Settled lib s' d.frame := (settled_fires hf _).mpr (.inr ⟨rfl, hnext⟩)
  have hkept : ∀ f, Settled lib s f → Settled lib s' f :=
    fun f hs => (settled_fires hf f).mpr (.inl hs)
  have hsplit : ∀ f, Settled lib s' f → Settled lib s f ∨ f = d.frame := by
    intro f hs
    rcases (settled_fires hf f).mp hs with hs | ⟨rfl, -⟩
    · exact .inl hs
    · exact .inr rfl
  have hconforms := System.conforms_fires h.conforms hf hl
  unfold Gate.settle at hmem
  by_cases hseen : keyOf lib (identity lib d.frame) ∈ s.mem.dedupe
  · rw [if_pos hseen] at hmem
    refine ⟨hconforms, ?_, ?_, ?_, fun f hf' => ?_, fun f hs => ?_⟩
    · rw [hmem]; exact h.marked
    · rw [hmem]; exact h.nodup
    · rw [hmem]; exact h.typed
    · rw [hmem] at hf'
      exact hkept f (h.emitted f hf')
    · rw [hmem]
      rcases hsplit f hs with hs | rfl
      · exact h.settled f hs
      · exact ⟨by rw [htype]; rfl, hseen⟩
  · rw [if_neg hseen] at hmem
    refine ⟨hconforms, ?_, ?_, fun e' he' => ?_, fun f hf' => ?_, fun f hs => ?_⟩
    · rw [hmem]
      change _ :: s.mem.dedupe = (d.frame :: framesOf s.mem.emitted).map _
      rw [List.map_cons, h.marked]
    · rw [hmem]
      exact List.nodup_cons.mpr ⟨hseen, h.nodup⟩
    · rw [hmem] at he'
      rcases List.mem_cons.mp he' with rfl | he'
      · rintro f ⟨⟩
        exact htype
      · exact h.typed e' he'
    · rw [hmem] at hf'
      rcases List.mem_cons.mp hf' with rfl | hf'
      · exact hself
      · exact hkept f (h.emitted f hf')
    · rw [hmem]
      rcases hsplit f hs with hs | rfl
      · exact ⟨(h.settled f hs).1, .tail _ (h.settled f hs).2⟩
      · exact ⟨by rw [htype]; rfl, .head _⟩

theorem lawful_of_ok (hf : Pool.Fires (frames lib) s e d k s') (hok : withinLimits.ok s e) :
    Lawful lib e.exch := by
  have hact := hf.act
  obtain ⟨t, op, ans, fate⟩ := e
  cases op with
  | run l g =>
    cases l with
    | arrive => exact hok
    | drop => trivial
    | settle => trivial
  | await o =>
    cases o with
    | sha256 bytes =>
      obtain ⟨r, -, hr⟩ := Option.bind_eq_some_iff.mp hact
      split at hr
      · rename_i hallows
        rw [Option.some.injEq, Prod.mk.injEq] at hr
        obtain ⟨rfl, -⟩ := hr
        have hr : r = lib.sha256Hex bytes := of_decide_eq_true hallows
        exact hr
      · cases hr

theorem Inv.fires (h : Inv lib s) (hf : Pool.Fires (frames lib) s e d k s')
    (hok : withinLimits.ok s e) : Inv lib s' := by
  have hl := lawful_of_ok hf hok
  have hmay := h.conforms.may hf
  have hframe : (Pool.mon (monitor lib) (watching d) e.tid s.log).frame = d.frame := frame_mon
  obtain ⟨l, g, i, hx, hs⟩ | ⟨o, r, hx, -, hs⟩ := object_fires hf
  · change (monitor lib).may _ e.exch.op at hmay
    rw [hx] at hmay hl
    cases l with
    | arrive =>
      refine h.still hf (hx ▸ hl) ?_ (by rw [hx]; rfl)
      rw [hs, hmay.2 i s.mem hl]
    | drop => exact hmay.elim
    | settle =>
      obtain ⟨-, t, htype, hg⟩ := hmay
      rw [hframe] at htype hg
      refine h.settle hf (hx ▸ hl) htype ?_ (by rw [hx]; rfl)
      rw [hs, hg]
  · refine h.still hf hl hs ?_
    rw [hx]
    rfl

end

theorem inv_inductive {lib : Lib} : ((frames lib).lts withinLimits).Inductive (Inv lib) :=
  System.inductive_of (fun _ hm => hm ▸ Inv.init) (fun _ _ h hsize =>
    h.spawn hsize) fun _ _ _ _ _ h hf hok => h.fires hf hok

section

variable {lib : Lib} {s : FrameState}

theorem copies_eq {es : List Emission}
    (h : ∀ e ∈ es, ∀ f, e.payload = .frame f → frameType f = some e.type) (t : String)
    (id : Identity) :
    copies lib t id es =
      (framesOf es).filter fun f => frameType f = some t ∧ identity lib f = id := by
  induction es with
  | nil => rfl
  | cons e es ih =>
    have ih := ih fun e' he' => h e' (.tail _ he')
    have hhead := h e (.head _)
    obtain ⟨type, payload⟩ := e
    unfold copies at ih ⊢
    rw [List.filter_cons]
    cases payload with
    | frame f =>
      have htype : frameType f = some type := hhead f rfl
      by_cases ht : type = t
      · subst ht
        rw [if_pos (decide_eq_true rfl)]
        change (f :: framesOf _).filter _ = (f :: framesOf es).filter _
        rw [List.filter_cons, List.filter_cons, ih]
        simp only [htype, true_and]
      · rw [if_neg (by simpa using ht), ih]
        change _ = (f :: framesOf es).filter _
        rw [List.filter_cons, if_neg]
        simp only [htype, Option.some.injEq, decide_eq_true_eq]
        exact fun hc => ht hc.1
    | flood w =>
      change List.filter _ (framesOf (if _ then _ else _)) = (framesOf es).filter _
      rw [← ih]
      split <;> rfl
    | largeFrame a b c d =>
      change List.filter _ (framesOf (if _ then _ else _)) = (framesOf es).filter _
      rw [← ih]
      split <;> rfl

theorem Inv.mem_copies (h : Inv lib s) {t : String} {id : Identity} {f : Json} :
    f ∈ copies lib t id s.mem.emitted ↔
    f ∈ framesOf s.mem.emitted ∧ frameType f = some t ∧ identity lib f = id := by
  rw [copies_eq h.typed, List.mem_filter, decide_eq_true_eq]

/-- Two emitted frames with one key are one frame. -/
theorem Inv.emitted_inj (h : Inv lib s) {f f' : Json} (hf : f ∈ framesOf s.mem.emitted)
    (hf' : f' ∈ framesOf s.mem.emitted) (hid : identity lib f = identity lib f') : f = f' := by
  have hnodup := h.nodup
  rw [h.marked] at hnodup
  exact List.inj_on_of_nodup_map hnodup hf hf' (congrArg (keyOf lib) hid)

theorem Inv.atMost (h : Inv lib s) (t : String) (id : Identity) :
    (copies lib t id s.mem.emitted).length ≤ 1 := by
  have hnodup : (copies lib t id s.mem.emitted).Nodup := by
    rw [copies_eq h.typed]
    have hkeys := h.nodup
    rw [h.marked] at hkeys
    exact (List.Nodup.of_map _ hkeys).filter _
  match hc : copies lib t id s.mem.emitted with
  | [] => simp
  | [f] => simp
  | f :: f' :: fs =>
    have hf := h.mem_copies.mp (hc ▸ List.mem_cons_self : f ∈ copies lib t id s.mem.emitted)
    have hf' := h.mem_copies.mp
        (hc ▸ List.mem_cons_of_mem _ List.mem_cons_self : f' ∈ copies lib t id s.mem.emitted)
    have heq := h.emitted_inj hf.1 hf'.1 (hf.2.2.trans hf'.2.2.symm)
    rw [hc] at hnodup
    exact absurd heq (fun heq => (List.nodup_cons.mp hnodup).1 (heq ▸ List.mem_cons_self))

end

namespace Example

def lib : Lib where
  base64ToBytes s := some (utf8 s)
  stableJson
    | .obj [] => "\x7b\x7d"
    | _ => ""
  sha256Hex bytes :=
    if bytes = utf8 "\x7b\x7d"
      then "44136fa355b3678a1146ad16f7e8649e94fb4fc21fe77e8310c060f61caaff8a" else ""

def event (t : String) : Json := .obj [("t", .str t), ("body", .obj [])]

def fate (_ : Nat) : inbound.Op → ObjFate Input digests
  | .await (.sha256 bytes) => ⟨⟨1, true, none⟩, fun _ => some (lib.sha256Hex bytes)⟩
  | .run .. => ⟨⟨1, true, none⟩, fun _ => none⟩

def allowed (e : Event inbound (ObjFate Input digests)) : Bool :=
  match e.exch with
  | ⟨.run .arrive _, (i, _)⟩ => i.allow
  | _ => true

def judge : System.Judge withinLimits where
  may _ d := !oversized d.frame
  ok _ e := allowed e
  may_iff _ d h := by
    have h : oversized d.frame = false := by simpa using h
    exact h
  ok_iff _ e h := by
    unfold allowed at h
    dsimp only [withinLimits]
    split at h
    · exact h
    · trivial

/-- Both calls have returned, on frames of these types with an empty body, and
emissions of the types `ts` were made. -/
def both (t t' : String) (ts : List String) (s : FrameState) : Bool :=
  match s.threads with
  | [⟨d, .ret _⟩, ⟨d', .ret _⟩] => frameType d.frame = some t && frameType d'.frame = some t' &&
      identity lib d.frame = .body "\x7b\x7d" && identity lib d'.frame = .body "\x7b\x7d" &&
      s.mem.emitted.map Emission.type = ts
  | _ => false

end Example

end RezSdk.L4.Dedupe
