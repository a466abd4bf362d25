import RezSdk.Core.LTS
import RezSdk.L3Service.TransportFrames

/-!
# The pending requests of a transport (`WsTransport.js`, `TcpTransport.js`)

The two transports keep their requests alike: a table of promises by request
id, a timer for each, and one loop that rejects them all. The model adds what
the source does not write down: which socket a request was written to, and why
each promise was settled.

* `Sound`: what the table, the timers and the history have to do with each
  other. A request id is used once, a promise is settled at most once and is
  then out of the table, and for a reason that is `Due` to it.
* `Sound.rejectAll`, `Sound.expire`, `Sound.sendRequest`, `Sound.take`: the
  operations keep it.
-/
namespace RezSdk.L3.Transports

open RezSdk.L1

/-- mirrors src/transport/WsTransport.js:5-7 and src/transport/TcpTransport.js:11-13 -/
def makeId (type : String) (now seq : Nat) : String :=
  type ++ ":" ++ toString now ++ ":" ++ toString seq

/-- Where the `connect()` call that made a socket stands. -/
inductive ConnectCall
  | waiting
  /-- the socket is up, the rest of the call has not run yet -/
  | opened
  | returned
  | failed
deriving DecidableEq

/-- Why `resolve` or `reject` of a request was called. -/
inductive Cause
  /-- the request was not written: no connection, no type, or no encoding -/
  | refused
  /-- writing to the socket threw, for the request or for a heartbeat -/
  | sendFailed (socket : Nat)
  /-- a frame with this id, and the sockets its bytes came from -/
  | response (sockets : List Nat) (id : String)
  | timeout (timer : Nat)
  | close
  /-- `close()` by the transport, for a bad frame of the socket -/
  | garbled (socket : Nat)
  /-- the socket's close event, or its pongs stayed out -/
  | closed (socket : Nat)
deriving DecidableEq

/-- A call of `sendRequest`: the id it got and the socket it was written to. -/
structure Asked where
  id : Option String
  socket : Option Nat
deriving DecidableEq

structure Requests where
  /-- `#seq` -/
  seq : Nat
  /-- `#pending` -/
  pending : Table
  /-- the timers that run, by promise, with the id they look for -/
  timers : List (Nat × String)
  /-- ghost: the calls of `sendRequest`; a promise is an index into it -/
  asked : List Asked
  /-- ghost: the calls of `resolve` and `reject` -/
  settled : List (Nat × Cause)

/-- What a caller hands to `sendRequest`, with the time and whether the frame
can be encoded and written. -/
structure Ask where
  type : String
  expectedResponseType : Option String
  now : Nat
  encodes : Bool
  sends : Bool

namespace Requests

def init : Requests := ⟨0, [], [], [], []⟩

/-- A call that throws before there is a promise in the table. -/
def refuse (r : Requests) : Requests :=
  { r with asked := r.asked ++ [⟨none, none⟩], settled := r.settled ++ [(r.asked.length,
  .refused)] }

/-- `connected` is the socket that requests go to, when there is one.
mirrors src/transport/WsTransport.js:145-187 and src/transport/TcpTransport.js:154-196 -/
def sendRequest (connected : Option Nat) (ask : Ask) (r : Requests) : Requests :=
  match connected with
  | none => r.refuse
  | some socket =>
    if (trim ask.type).isEmpty then r.refuse
    else
      let id := makeId (trim ask.type) ask.now (r.seq + 1)
      if ask.encodes then
        let asked := r.asked ++ [⟨some id, some socket⟩]
        if ask.sends then
          { r with
            seq := r.seq + 1
            pending := OMap.set id ⟨r.asked.length, ask.expectedResponseType⟩ r.pending
            timers := OMap.set r.asked.length id r.timers
            asked }
        else
          { r with
            seq := r.seq + 1
            pending :=
              OMap.delete id (OMap.set id ⟨r.asked.length, ask.expectedResponseType⟩ r.pending)
            timers := OMap.delete r.asked.length (OMap.set r.asked.length id r.timers)
            asked
            settled := r.settled ++ [(r.asked.length, .sendFailed socket)] }
      else { r with seq := r.seq + 1 }.refuse

/-- The timer of a request goes off.
mirrors src/transport/WsTransport.js:167-171 and src/transport/TcpTransport.js:176-180 -/
def expire (promise : Nat) (r : Requests) : Requests :=
  match OMap.get promise r.timers with
  | none => r
  | some id =>
    let r := { r with timers := OMap.delete promise r.timers }
    if (OMap.get id r.pending).isSome then
      { r with pending := OMap.delete id r.pending, settled := r.settled ++ [(promise,
      .timeout promise)] }
    else r

/-- The promises in the table. -/
def waiting (r : Requests) : List Nat := r.pending.map fun e => e.2.promise

/-- mirrors src/transport/WsTransport.js:118-122, 247-251 and
src/transport/TcpTransport.js:126-130, 329-333 -/
def rejectAll (cause : Cause) (r : Requests) : Requests :=
  { r with
    pending := []
    timers := r.timers.filter fun t => t.1 ∉ r.waiting
    settled := r.settled ++ r.waiting.map fun p => (p, cause) }

/-- What a handled frame does to the requests; `sockets` are those its bytes
came from. -/
def take (sockets : List Nat) (frame : Option Json) (handled : Handling × Table) (r : Requests) :
    Requests :=
  match handled with
  | (.settled promise _, pending) =>
    { r with
      pending
      timers := OMap.delete promise r.timers
      settled := r.settled ++ [(promise, .response sockets ((frameId frame).getD ""))] }
  | (.dropped promise, pending) => { r with pending, timers := OMap.delete promise r.timers }
  | (_, _) => r

/-- The socket that a request was written to. -/
def sentOn (r : Requests) (promise : Nat) : Option Nat := (r.asked[promise]?).bind Asked.socket

end Requests

/-- The reason is one that a request may be settled for. -/
def Due (promise : Nat) (asked : Asked) : Cause → Prop
  | .refused => asked.socket = none
  | .sendFailed socket => asked.socket = some socket
  | .response sockets id => asked.id = some id ∧ ∀ socket ∈ sockets, asked.socket = some socket
  | .timeout timer => timer = promise
  | .close => True
  | .garbled socket => asked.socket = some socket
  | .closed socket => asked.socket = some socket

/-! ## Request ids -/

theorem eq_of_append_cons {α : Type} {c : α} {xs ys as bs : List α} (hx : c ∉ xs) (hy : c ∉ ys)
    (h : as ++ c :: xs = bs ++ c :: ys) : xs = ys := by
  rcases List.append_eq_append_iff.mp h with ⟨ms, -, hms⟩ | ⟨ms, -, hms⟩
  · cases ms with
    | nil => exact (List.cons.inj hms).2
    | cons m ms =>
      have hxs : xs = ms ++ c :: ys := (List.cons.inj hms).2
      rw [hxs] at hx
      exact absurd (List.mem_append_right ms List.mem_cons_self) hx
  · cases ms with
    | nil => exact (List.cons.inj hms).2.symm
    | cons m ms =>
      have hys : ys = ms ++ c :: xs := (List.cons.inj hms).2
      rw [hys] at hy
      exact absurd (List.mem_append_right ms List.mem_cons_self) hy

theorem colon_notMem_digits (n : Nat) : ':' ∉ Nat.toDigits 10 n := by
  intro h
  have hdigit := Nat.isDigit_of_mem_toDigits (by omega) (by omega) h
  exact absurd hdigit (by decide)

theorem toList_makeId (type : String) (now seq : Nat) :
    (makeId type now seq).toList =
      (type ++ ":" ++ toString now).toList ++ ':' :: Nat.toDigits 10 seq := by
  have hseq : toString seq = String.ofList (Nat.toDigits 10 seq) := Nat.toString_eq_ofList_toDigits
  unfold makeId
  rw [String.toList_append, String.toList_append, List.append_assoc, hseq, String.toList_ofList,
    String.toList_ofList]
  rfl

/-- The counter can be read off an id. -/
theorem makeId_seq {type type' : String} {now now' seq seq' : Nat}
    (h : makeId type now seq = makeId type' now' seq') : seq = seq' := by
  have hlist := congrArg String.toList h
  rw [toList_makeId, toList_makeId] at hlist
  have hdigits := eq_of_append_cons (colon_notMem_digits seq) (colon_notMem_digits seq') hlist
  have hread := congrArg (fun ds => Nat.ofDigitChars 10 ds 0) hdigits
  simpa only [Nat.ofDigitChars_ten_toDigits] using hread

/-! ## The invariant -/

structure Requests.Sound (r : Requests) : Prop where
  once : (r.settled.map Prod.fst).Nodup
  keys : (r.pending.map Prod.fst).Nodup
  /-- an entry is filed under the id of its request -/
  filed : ∀ e ∈ r.pending, ∃ socket, r.asked[e.2.promise]? = some ⟨some e.1, some socket⟩
  waits : ∀ e ∈ r.pending, e.2.promise ∉ r.settled.map Prod.fst
  timed : ∀ t ∈ r.timers, ∃ socket, r.asked[t.1]? = some ⟨some t.2, socket⟩
  numbered : ∀ a ∈ r.asked, ∀ id, a.id = some id → ∃ type now n, n ≤ r.seq ∧ id = makeId type now n
  distinct : ∀ (p q : Nat) (a b : Asked) (id : String), r.asked[p]? = some a →
    r.asked[q]? = some b → a.id = some id →
    b.id = some id → p = q
  due : ∀ s ∈ r.settled, ∃ asked, r.asked[s.1]? = some asked ∧ Due s.1 asked s.2

namespace Requests.Sound

variable {r : Requests}

theorem init : Sound Requests.init := by
  constructor <;> simp [Requests.init]

theorem settled_lt (h : r.Sound) {p : Nat} (hp : p ∈ r.settled.map Prod.fst) :
    p < r.asked.length := by
  obtain ⟨s, hs, rfl⟩ := List.mem_map.mp hp
  obtain ⟨asked, hasked, -⟩ := h.due s hs
  exact (List.getElem?_eq_some_iff.mp hasked).1

/-- An entry is found by its id. -/
theorem get_pending (h : r.Sound) {e : String × Entry} (he : e ∈ r.pending) :
    OMap.get e.1 r.pending = some e.2 :=
  OMap.get_of_mem h.keys he

/-- A promise stands in the table once. -/
theorem entry_eq (h : r.Sound) {e e' : String × Entry} (he : e ∈ r.pending) (he' : e' ∈ r.pending)
    (hp : e.2.promise = e'.2.promise) : e = e' := by
  obtain ⟨k, hk⟩ := h.filed e he
  obtain ⟨k', hk'⟩ := h.filed e' he'
  rw [hp, hk'] at hk
  have hid : e'.1 = e.1 := by
    simp only [Option.some.injEq, Asked.mk.injEq] at hk
    exact hk.1
  have hget := h.get_pending he
  rw [← hid, h.get_pending he'] at hget
  exact Prod.ext hid.symm (Option.some.inj hget).symm

theorem nodup_waiting (h : r.Sound) : r.waiting.Nodup := by
  refine List.Nodup.map_on ?_ (List.Nodup.of_map _ h.keys)
  intro e he e' he' hp
  exact h.entry_eq he he' hp

/-- Entries and timers may go away. -/
theorem shrink (h : r.Sound) {pending : Table} {timers : List (Nat × String)}
    (hp : pending.Sublist r.pending) (ht : timers.Sublist r.timers) :
    Sound { r with pending, timers } where
  once := h.once
  keys := h.keys.sublist (hp.map _)
  filed := fun e he => h.filed e (hp.subset he)
  waits := fun e he => h.waits e (hp.subset he)
  timed := fun t ht' => h.timed t (ht.subset ht')
  numbered := h.numbered
  distinct := h.distinct
  due := h.due

/-- Promises that are out of the table are settled, for reasons that are due. -/
theorem settle (h : r.Sound) {news : List (Nat × Cause)} (hnew : (news.map Prod.fst).Nodup)
    (hopen : ∀ s ∈ news, s.1 ∉ r.settled.map Prod.fst ∧ s.1 ∉ r.waiting)
    (hdue : ∀ s ∈ news, ∃ asked, r.asked[s.1]? = some asked ∧ Due s.1 asked s.2) :
    Sound { r with settled := r.settled ++ news } where
  once := by
    rw [List.map_append, List.nodup_append]
    refine ⟨h.once, hnew, ?_⟩
    rintro p hp q hq rfl
    obtain ⟨s, hs, rfl⟩ := List.mem_map.mp hq
    exact (hopen s hs).1 hp
  keys := h.keys
  filed := h.filed
  waits := by
    intro e he hmem
    rw [List.map_append, List.mem_append] at hmem
    rcases hmem with hmem | hmem
    · exact h.waits e he hmem
    · obtain ⟨s, hs, heq⟩ := List.mem_map.mp hmem
      refine (hopen s hs).2 ?_
      rw [heq]
      exact List.mem_map_of_mem he
  timed := h.timed
  numbered := h.numbered
  distinct := h.distinct
  due := by
    intro s hs
    rcases List.mem_append.mp hs with hs | hs
    · exact h.due s hs
    · exact hdue s hs

/-- A call that gets the next promise, for which nothing is settled yet. -/
theorem ask (h : r.Sound) {seq : Nat} {asked : Asked} (hseq : r.seq ≤ seq)
    (hid : ∀ id, asked.id = some id → r.seq < seq ∧ ∃ type now, id = makeId type now seq) :
    Sound { r with seq, asked := r.asked ++ [asked] } where
  once := h.once
  keys := h.keys
  filed := by
    intro e he
    obtain ⟨socket, hk⟩ := h.filed e he
    exact ⟨socket, List.getElem?_append_left (List.getElem?_eq_some_iff.mp hk).1 ▸ hk⟩
  waits := h.waits
  timed := by
    intro t ht
    obtain ⟨socket, hk⟩ := h.timed t ht
    exact ⟨socket, List.getElem?_append_left (List.getElem?_eq_some_iff.mp hk).1 ▸ hk⟩
  numbered := by
    intro a ha id haid
    rcases List.mem_append.mp ha with ha | ha
    · obtain ⟨type, now, n, hn, hmade⟩ := h.numbered a ha id haid
      exact ⟨type, now, n, le_trans hn hseq, hmade⟩
    · rw [List.mem_singleton] at ha
      subst ha
      obtain ⟨-, type, now, hmade⟩ := hid id haid
      exact ⟨type, now, seq, le_refl _, hmade⟩
  distinct := by
    -- an old id has an old number
    have hold (p : Nat) (a : Asked) (id : String) (ha : r.asked[p]? = some a)
        (haid : a.id = some id) (hnew : asked.id = some id) :
        False := by
      obtain ⟨type, now, n, hn, rfl⟩ := h.numbered a (List.mem_of_getElem? ha) id haid
      obtain ⟨hlt, type', now', hmade⟩ := hid _ hnew
      have hsame := makeId_seq hmade
      omega
    intro p q a b id hp hq ha hb
    rw [List.getElem?_append] at hp hq
    split at hp
    · split at hq
      · exact h.distinct p q a b id hp hq ha hb
      · have hb' : b = asked := List.mem_singleton.mp (List.mem_of_getElem? hq)
        exact (hold p a id hp ha (hb' ▸ hb)).elim
    · have ha' : a = asked := List.mem_singleton.mp (List.mem_of_getElem? hp)
      split at hq
      · exact (hold q b id hq hb (ha' ▸ ha)).elim
      · have hp' := (List.getElem?_eq_some_iff.mp hp).1
        have hq' := (List.getElem?_eq_some_iff.mp hq).1
        rw [List.length_singleton] at hp' hq'
        omega
  due := by
    intro s hs
    obtain ⟨a, ha, hdue⟩ := h.due s hs
    exact ⟨a, List.getElem?_append_left (List.getElem?_eq_some_iff.mp ha).1 ▸ ha, hdue⟩

theorem waiting_lt (h : r.Sound) {p : Nat} (hp : p ∈ r.waiting) : p < r.asked.length := by
  obtain ⟨e, he, rfl⟩ := List.mem_map.mp hp
  obtain ⟨socket, hk⟩ := h.filed e he
  exact (List.getElem?_eq_some_iff.mp hk).1

/-- The newest call is settled at once. -/
theorem settle_new (h : r.Sound) {seq : Nat} {asked : Asked} {cause : Cause} (hseq : r.seq ≤ seq)
    (hid : ∀ id, asked.id = some id → r.seq < seq ∧ ∃ type now, id = makeId type now seq)
    (hdue : Due r.asked.length asked cause) :
    Sound { r with
      seq, asked := r.asked ++ [asked], settled := r.settled ++ [(r.asked.length, cause)] } := by
  refine settle (h.ask hseq hid) (List.nodup_singleton _) ?_ ?_
  · intro s hs
    rw [List.mem_singleton] at hs
    subst hs
    exact ⟨fun hmem => absurd (h.settled_lt hmem) (lt_irrefl _),
      fun hmem => absurd (h.waiting_lt hmem) (lt_irrefl _)⟩
  · intro s hs
    rw [List.mem_singleton] at hs
    subst hs
    exact ⟨asked, by simp, hdue⟩

theorem refuse (h : r.Sound) : Sound r.refuse :=
  h.settle_new (le_refl _) (fun _ hid => by cases hid) rfl

/-- An id that is not in the history yet. -/
theorem get_fresh (h : r.Sound) (type : String) (now : Nat) :
    OMap.get (makeId type now (r.seq + 1)) r.pending = none := by
  rw [OMap.get_eq_none]
  intro hmem
  obtain ⟨e, he, heq⟩ := List.mem_map.mp hmem
  obtain ⟨socket, hk⟩ := h.filed e he
  obtain ⟨type', now', n, hn, hmade⟩ := h.numbered _ (List.mem_of_getElem? hk) e.1 rfl
  rw [heq] at hmade
  have hsame := makeId_seq hmade
  omega

theorem get_timer_fresh (h : r.Sound) : OMap.get r.asked.length r.timers = none := by
  rw [OMap.get_eq_none]
  intro hmem
  obtain ⟨t, ht, heq⟩ := List.mem_map.mp hmem
  obtain ⟨socket, hk⟩ := h.timed t ht
  have hlt := (List.getElem?_eq_some_iff.mp hk).1
  omega

theorem sendRequest (h : r.Sound) (connected : Option Nat) (ask : Ask) :
    Sound (r.sendRequest connected ask) := by
  unfold Requests.sendRequest
  cases connected with
  | none => exact h.refuse
  | some socket =>
    dsimp only
    split
    · exact h.refuse
    · have hid (id : String) (hmade : some (makeId (trim ask.type) ask.now (r.seq + 1)) = some id) :
          r.seq < r.seq + 1 ∧ ∃ type now, id = makeId type now (r.seq + 1) := by
        have heq := Option.some.inj hmade
        exact ⟨Nat.lt_succ_self _, _, _, heq.symm⟩
      split
      · split
        · have hasked : Sound { r with
              seq := r.seq + 1
              asked :=
                r.asked ++ [⟨some (makeId (trim ask.type) ask.now (r.seq + 1)), some socket⟩] } :=
            h.ask (Nat.le_succ _) hid
          refine ⟨hasked.once, OMap.nodup_set h.keys, ?_, ?_, ?_, hasked.numbered,
            hasked.distinct, hasked.due⟩
          · intro e he
            rcases OMap.mem_set he with rfl | he
            · exact ⟨socket, by simp⟩
            · exact hasked.filed e he
          · intro e he
            rcases OMap.mem_set he with rfl | he
            · exact fun hmem => absurd (h.settled_lt hmem) (lt_irrefl _)
            · exact h.waits e he
          · intro t ht
            rcases OMap.mem_set ht with rfl | ht
            · exact ⟨some socket, by simp⟩
            · exact hasked.timed t ht
        · rw [OMap.delete_set (h.get_fresh _ _), OMap.delete_set h.get_timer_fresh]
          exact h.settle_new (Nat.le_succ _) hid rfl
      · exact h.settle_new (Nat.le_succ _) (fun _ hid => by cases hid) rfl

theorem rejectAll (h : r.Sound) {cause : Cause}
    (hdue :
        ∀ e ∈ r.pending, ∀ asked, r.asked[e.2.promise]? = some asked →
          Due e.2.promise asked cause) : Sound (r.rejectAll cause) := by
  have hempty :=
    h.shrink (List.nil_sublist r.pending) (List.filter_sublist (p := fun t => t.1 ∉ r.waiting))
  refine settle hempty ?_ ?_ ?_
  · rw [List.map_map]
    have hid : (Prod.fst ∘ fun p => (p, cause)) = (id : Nat → Nat) := rfl
    rw [hid, List.map_id]
    exact h.nodup_waiting
  · intro s hs
    obtain ⟨p, hp, rfl⟩ := List.mem_map.mp hs
    obtain ⟨e, he, rfl⟩ := List.mem_map.mp hp
    exact ⟨h.waits e he, List.not_mem_nil⟩
  · intro s hs
    obtain ⟨p, hp, rfl⟩ := List.mem_map.mp hs
    obtain ⟨e, he, rfl⟩ := List.mem_map.mp hp
    obtain ⟨socket, hk⟩ := h.filed e he
    exact ⟨_, hk, hdue e he _ hk⟩

/-- An entry leaves the table, and its promise is settled. -/
theorem settle_entry (h : r.Sound) {id : String} {entry : Entry} {timers : List (Nat × String)}
    {cause : Cause} (hget : OMap.get id r.pending = some entry) (ht : timers.Sublist r.timers)
    (hdue : ∀ asked, r.asked[entry.promise]? = some asked → Due entry.promise asked cause) :
    Sound { r with
      pending := OMap.delete id r.pending
      timers
      settled := r.settled ++ [(entry.promise, cause)] } := by
  have hmem := OMap.mem_of_get hget
  refine settle (h.shrink List.filter_sublist ht) (List.nodup_singleton _) ?_ ?_
  · intro s hs
    rw [List.mem_singleton] at hs
    subst hs
    refine ⟨h.waits _ hmem, fun hp => ?_⟩
    obtain ⟨e, he, heq⟩ := List.mem_map.mp hp
    obtain ⟨hin, hne⟩ := List.mem_filter.mp he
    have hsame := h.entry_eq hin hmem heq
    rw [hsame] at hne
    simp at hne
  · intro s hs
    rw [List.mem_singleton] at hs
    subst hs
    obtain ⟨socket, hk⟩ := h.filed _ hmem
    exact ⟨_, hk, hdue _ hk⟩

theorem expire (h : r.Sound) (promise : Nat) : Sound (r.expire promise) := by
  unfold Requests.expire
  cases htimer : OMap.get promise r.timers with
  | none => exact h
  | some id =>
    dsimp only
    split
    · rename_i hsome
      obtain ⟨entry, hget⟩ := Option.isSome_iff_exists.mp hsome
      -- the entry under the timer's id is the timer's own
      obtain ⟨socket, hown⟩ := h.timed _ (OMap.mem_of_get htimer)
      obtain ⟨socket', hentry⟩ := h.filed _ (OMap.mem_of_get hget)
      have hsame := h.distinct _ _ _ _ id hown hentry rfl rfl
      dsimp only at hsame
      rw [hsame]
      exact h.settle_entry hget List.filter_sublist (fun _ _ => rfl)
    · exact h.shrink (List.Sublist.refl _) List.filter_sublist

end Requests.Sound

/-! ## Frames -/

/-- What a transport may do with a frame: take the request with its id, or
leave the table. -/
def AnswersFrame (pending : Table) (frame : Option Json) (handled : Handling × Table) : Prop :=
  (∃ id entry, frameId frame = some id ∧ OMap.get id pending = some entry ∧
  handled.2 = OMap.delete id pending ∧
    (handled.1 = .dropped entry.promise ∨ ∃ outcome, handled.1 = .settled entry.promise outcome)) ∨
  (handled.2 = pending ∧
  ((∃ payload, handled.1 = .emitted payload) ∨ handled.1 = .heard ∨ handled.1 = .thrown))

theorem settle_cases (promise : Nat) (outcome : Option (Except TransportError Response)) :
    settle promise outcome = .dropped promise ∨
    ∃ o, settle promise outcome = .settled promise o := by
  cases outcome with
  | none => exact .inl rfl
  | some o => exact .inr ⟨o, rfl⟩

theorem unsolicited_cases (numText : JsNumber → String) (frame : Option Json) :
    (∃ payload, unsolicited numText frame = .emitted payload) ∨
    unsolicited numText frame = .thrown := by
  unfold unsolicited
  split
  · exact .inl ⟨_, rfl⟩
  · exact .inr rfl

theorem find_entry {pending : Table} {frame : Option Json} {id : String} {entry : Entry}
    (h : ((frameId frame).bind fun id => (OMap.get id pending).map fun entry => (id, entry)) =
        some (id, entry)) : frameId frame = some id ∧ OMap.get id pending = some entry := by
  obtain ⟨id', hid, hmap⟩ := Option.bind_eq_some_iff.mp h
  obtain ⟨entry', hget, heq⟩ := Option.map_eq_some_iff.mp hmap
  cases heq
  exact ⟨hid, hget⟩

theorem answers_ws (numText : JsNumber → String) (pending : Table) (frame : Option Json) :
    AnswersFrame pending frame (Ws.handle numText pending frame) := by
  unfold Ws.handle
  split
  · exact .inr ⟨rfl, .inr (.inl rfl)⟩
  · split
    · rename_i id entry hfound
      obtain ⟨hid, hget⟩ := find_entry hfound
      exact .inl ⟨id, entry, hid, hget, rfl, settle_cases _ _⟩
    · exact .inr ⟨rfl, (unsolicited_cases numText frame).imp id .inr⟩

theorem answers_tcp (numText : JsNumber → String) (pending : Table) (frame : Option Json) :
    AnswersFrame pending frame (Tcp.handle numText pending frame) := by
  unfold Tcp.handle
  split
  · rename_i id entry hfound
    obtain ⟨hid, hget⟩ := find_entry hfound
    exact .inl ⟨id, entry, hid, hget, rfl, settle_cases _ _⟩
  · exact .inr ⟨rfl, (unsolicited_cases numText frame).imp id .inr⟩

/-- The frame answers only requests that were written to its own sockets. -/
def Requests.Expected (sockets : List Nat) (frame : Option Json) (r : Requests) : Prop :=
  ∀ id entry, frameId frame = some id → OMap.get id r.pending = some entry →
  ∀ socket ∈ sockets, r.sentOn entry.promise = some socket

theorem Requests.Sound.take {r : Requests} (h : r.Sound) {sockets : List Nat} {frame : Option Json}
    {handled : Handling × Table} (hanswers : AnswersFrame r.pending frame handled)
    (hexpected : r.Expected sockets frame) : Sound (r.take sockets frame handled) := by
  obtain ⟨handling, table⟩ := handled
  rcases hanswers with ⟨id, entry, hid, hget, htable, hcase⟩ | ⟨htable, hcase⟩
  · dsimp only at htable hcase
    subst htable
    rcases hcase with rfl | ⟨outcome, rfl⟩
    · exact h.shrink List.filter_sublist List.filter_sublist
    · refine h.settle_entry hget List.filter_sublist (fun asked hasked => ?_)
      obtain ⟨k, hfiled⟩ := h.filed _ (OMap.mem_of_get hget)
      rw [hasked] at hfiled
      cases hfiled
      refine ⟨by rw [hid]; rfl, fun socket hsocket => ?_⟩
      have hsent := hexpected id entry hid hget socket hsocket
      unfold Requests.sentOn at hsent
      rw [hasked] at hsent
      exact hsent
  · dsimp only at hcase
    rcases hcase with ⟨payload, rfl⟩ | rfl | rfl <;> exact h

end RezSdk.L3.Transports
