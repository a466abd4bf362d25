import RezSdk.L2Storage.EventPages
import RezSdk.L4Runs.EventLog

/-!
# Paging through a link's events

A reader asks `listByPeerLinkId` for a page with a limit of its choice, then
for the page after the cursor it was given, until the cursor is null. Appends
may start and complete between two pages, and none is in flight while a page
is read. Pages are cut from the index, so they are exact for the logs whose
index is: the appends keep to the discipline under which every acknowledged
event is listed (`completeAppends`). Two appends that read the same index
leave an event which no page returns (`pages_miss`).

The reader stands at a position of the index (`Standing`): the cursor names
the event before it. The index only grows at its end and holds an id once, so
the position is the same in the grown index.

Results:
* `page_reads`: a page read returns the window at the reader's position.
* `pages_cut`: the pages read so far are what the log has between the first
  position and the current one.
* `pages_exact`: from the first page on, the pages are the log of the link.
* `pages_listed`: on any log at all, the pages hold listed events only.
-/
namespace RezSdk.L4.EventPaging

open RezSdk.L1 RezSdk.L2 RezSdk.L3 RezSdk.L4.EventLog

variable {Snap : Type} {core : Core Snap} {w : Wording} {owner link : Id}

/-! ## The property -/

/-- One page, read alone and without storage failures. -/
def Page (core : Core Snap) (w : Wording) (owner link : Id) (s : LogState Snap) (limit : Nat)
    (cursor : Option String) (items : List EventRecord) (next : Option String) : Prop :=
  ∃ t m', Ends (calm core t) (Events.listPage w owner link (Events.pageOptions limit cursor)) s.mem
  (.ok (items, next)) m'

/-- Appends that have all completed. -/
def Appended (core : Core Snap) (s s' : LogState Snap) : Prop :=
  (∃ ls, ((appends core).lts completeAppends).Run s ls s') ∧ Quiet s'

/-- The pages a reader gets one after the other, with appends in between; the
k-th has the limit `limits k`. -/
inductive Pages (core : Core Snap) (w : Wording) (owner link : Id) :
    (Nat → Nat) → LogState Snap → Option String → List (List EventRecord) →
    LogState Snap → Option String → Prop
  | last {limits : Nat → Nat} {s : LogState Snap} {cursor next : Option String}
      {items : List EventRecord} :
      Page core w owner link s (limits 0) cursor items next →
        Pages core w owner link limits s cursor [items] s next
  | more {limits : Nat → Nat} {s s' s'' : LogState Snap} {cursor next : Option String} {c : String}
      {items : List EventRecord} {pages : List (List EventRecord)} :
      Page core w owner link s (limits 0) cursor items (some c) → Appended core s s' →
      Pages core w owner link (fun k => limits (k + 1)) s' (some c) pages s'' next →
      Pages core w owner link limits s cursor (items :: pages) s'' next

/-- `items` are the events of the link, each once and in the order of their
appends. -/
structure LinkLog (core : Core Snap) (owner link : Id) (s : LogState Snap)
    (items : List EventRecord) : Prop where
  all : ∀ ev, ev ∈ items ↔
    ev.ownerAccountId = owner ∧ ev.peerLinkId = link ∧
      s.mem.kv.lookup (.event owner ev.eventId) = some ev
  once : items.Nodup
  ordered : ∀ s₀ ls, ((appends core).lts completeAppends).Reachable s₀ →
    ((appends core).lts completeAppends).Run s₀ ls s → ∀ x y, Acknowledged s₀ x →
    Settled s₀ x → Unheard s₀ y →
    Acknowledged s y → x.ownerAccountId = owner → x.peerLinkId = link → y.ownerAccountId = owner →
      y.peerLinkId = link →
    List.Sublist [x, y] items

/-! ## Quiet logs -/

theorem settled_of_quiet {s : LogState Snap} (h : Quiet s) (ev : EventRecord) : Settled s ev :=
  fun th hth _ => h th hth

theorem map_filterMap {f : Id → Option EventRecord} {ids : List Id}
    (h : ∀ i ∈ ids, ∃ r, f i = some r) : ids.map f = (ids.filterMap f).map some := by
  induction ids with
  | nil => rfl
  | cons i ids ih =>
    obtain ⟨r, hr⟩ := h i (.head _)
    rw [List.map_cons, List.filterMap_cons, hr, ih fun j hj => h j (.tail _ hj), List.map_cons]

theorem filterMap_map {f : Id → Option EventRecord} {g : EventRecord → Id} {ids : List Id}
    (h : ∀ i ∈ ids, ∃ r, f i = some r ∧ g r = i) : (ids.filterMap f).map g = ids := by
  induction ids with
  | nil => rfl
  | cons i ids ih =>
    obtain ⟨r, hr, hid⟩ := h i (.head _)
    rw [List.filterMap_cons, hr, List.map_cons, hid, ih fun j hj => h j (.tail _ hj)]

/-- Every id of an index has its record. -/
theorem indexed_records {s : LogState Snap} (h : Inv s) (o l : Id) :
    (indexed s.mem.kv o l).map (fun i => s.mem.kv.lookup (.event o i)) =
      (listed s.mem.kv o l).map some :=
  map_filterMap fun i hi => (h.known o l i hi).imp fun _ hr => hr.1

theorem listed_ids {s : LogState Snap} (h : Inv s) (o l : Id) :
    (listed s.mem.kv o l).map (·.eventId) = indexed s.mem.kv o l :=
  filterMap_map fun i hi => by
    obtain ⟨r, hr, -⟩ := h.known o l i hi
    exact ⟨r, hr, (h.filed o i r hr).2⟩

/-- A quiet index names an event once. -/
theorem indexed_nodup {s : LogState Snap} (h : Inv s) (hquiet : Quiet s) (o l : Id) :
    (indexed s.mem.kv o l).Nodup := by
  rw [List.nodup_iff_count_le_one]
  intro i
  by_cases hi : i ∈ indexed s.mem.kv o l
  · obtain ⟨r, hr, hl⟩ := h.known o l i hi
    obtain ⟨ho, hid⟩ := h.filed o i r hr
    rw [← ho, ← hid] at hr
    rw [← ho, ← hl, ← hid]
    exact (h.settled hr (settled_of_quiet hquiet r)).le
  · rw [List.count_eq_zero_of_not_mem hi]
    exact Nat.zero_le 1

theorem mem_listed {s : LogState Snap} (h : Inv s) (hquiet : Quiet s) {o l : Id}
    {ev : EventRecord} :
    ev ∈ listed s.mem.kv o l ↔
    ev.ownerAccountId = o ∧ ev.peerLinkId = l ∧
    s.mem.kv.lookup (.event o ev.eventId) = some ev := by
  constructor
  · intro hmem
    obtain ⟨i, hi, hr⟩ := List.mem_filterMap.mp hmem
    obtain ⟨ho, hid⟩ := h.filed o i ev hr
    obtain ⟨r, hr', hl⟩ := h.known o l i hi
    rw [hr, Option.some.injEq] at hr'
    subst hr' hid
    exact ⟨ho, hl, hr⟩
  · rintro ⟨rfl, rfl, hr⟩
    have hone := h.settled hr (settled_of_quiet hquiet ev)
    have hmem : ev.eventId ∈ indexed s.mem.kv ev.ownerAccountId ev.peerLinkId :=
      List.count_pos_iff.mp (by rw [hone]; exact Nat.one_pos)
    exact List.mem_filterMap.mpr ⟨ev.eventId, hmem, hr⟩

theorem listed_log {s : LogState Snap} (h : Inv s) (hquiet : Quiet s) :
    LinkLog core owner link s (listed s.mem.kv owner link) where
  all ev := mem_listed h hquiet
  once := by
    refine List.Nodup.of_map (·.eventId) ?_
    rw [listed_ids h]
    exact indexed_nodup h hquiet owner link
  ordered s₀ ls hr hrun x y hx hxs hy hack hxo hxl hyo hyl := by
    subst hyo hyl
    exact listed_order ((inv_inductive core).reachable s₀ hr) hrun hquiet hx hxs hy hack hxo hxl

/-! ## One page -/

/-- The reader has read `k` events: the cursor names the last of them. -/
def Standing (w : Wording) (log : List EventRecord) (cursor : Option String) (k : Nat) : Prop :=
  (cursor = none ∧ k = 0) ∨ ∃ j ev, k = j + 1 ∧ log[j]? = some ev ∧ cursor = some (w.text ev)

/-- The page at a position. -/
def window (log : List EventRecord) (k limit : Nat) : List EventRecord := (log.drop k).take limit

/-- The cursor of the next page. -/
def nextCursor (w : Wording) (log : List EventRecord) (k limit : Nat) : Option String :=
  if k + limit < log.length then (log[k + limit - 1]?).map w.text else none

/-- What `normalizeListOptions` makes of the cursor is the position. -/
theorem Standing.start {log : List EventRecord} {cursor : Option String} {k n : Nat}
    (h : Standing w log cursor k) (hids : (log.map (·.eventId)).Nodup) (hn : 0 < n) :
    ∃ c, Events.normalizeListOptions (Events.pageOptions n cursor) = (some n, c) ∧
      Events.pageStart (log.map (·.eventId)) c = k := by
  rw [Events.normalizeListOptions_page, Events.normalizedLimit_nat hn]
  rcases h with ⟨rfl, rfl⟩ | ⟨j, ev, rfl, hev, rfl⟩
  · exact ⟨none, rfl, rfl⟩
  · refine ⟨some ev.eventId, congrArg (some n, ·) (Events.normalizedCursor_text w ev), ?_⟩
    refine Events.pageStart_next hids ?_
    rw [List.getElem?_map, hev, Option.map_some]

theorem filterMap_window {f : Id → Option EventRecord} {ids : List Id} {log : List EventRecord}
    (h : ids.map f = log.map some) (k n : Nat) :
    ((ids.drop k).take n).filterMap f = window log k n := by
  have hmap : ((ids.drop k).take n).map f = (window log k n).map some := by
    rw [window, List.map_take, List.map_drop, h, List.map_take, List.map_drop]
  generalize (ids.drop k).take n = part at hmap ⊢
  generalize window log k n = out at hmap ⊢
  induction part generalizing out with
  | nil =>
    cases out with
    | nil => rfl
    | cons r out => cases hmap
  | cons i part ih =>
    cases out with
    | nil => cases hmap
    | cons r out =>
      obtain ⟨hi, hrest⟩ := List.cons.inj hmap
      rw [List.filterMap_cons, hi, ih out hrest]

/-- The last item of a full window is the one before the next position. -/
theorem window_last {log : List EventRecord} {k n : Nat} (hn : 0 < n) (h : k + n < log.length) :
    (window log k n).getLast? = log[k + n - 1]? := by
  have hlen : (window log k n).length = n := by
    rw [window, List.length_take, List.length_drop]
    omega
  rw [List.getLast?_eq_getElem?, hlen, window, List.getElem?_take_of_lt (by omega),
    List.getElem?_drop]
  congr 1
  omega

/-- What `listByPeerLinkId` reads with a limit. -/
theorem list_reads (core : Core Snap) {s : LogState Snap} (h : Inv s) (limit : Nat) {k : Nat}
    {c : Option Id} (hstart : Events.pageStart (indexed s.mem.kv owner link) c = k) (t : Nat) :
    After (calm core t) (fun x m' =>
          m' = s.mem ∧
          x = .ok (window (listed s.mem.kv owner link) k limit, if k + limit <
                  (listed s.mem.kv owner link).length then
                  (window (listed s.mem.kv owner link) k limit).getLast?.map (·.eventId) else none))
      (Events.listByPeerLinkId owner link (some limit) c) s.mem := by
  have hlength : (indexed s.mem.kv owner link).length = (listed s.mem.kv owner link).length := by
    rw [← listed_ids h owner link, List.length_map]
  have hitems := filterMap_window (indexed_records h owner link) k limit
  refine after_js_bind (calm_get (after_js_bind ((calm_readAll_eq _).mono ?_)))
  rintro x m' ⟨rfl, rfl⟩
  refine ⟨rfl, ?_⟩
  unfold indexed at hstart hitems hlength
  dsimp only
  rw [hstart, hitems, hlength]

/-- A page read returns the window at the reader's position. -/
theorem page_reads {s : LogState Snap} (h : Inv s) (hquiet : Quiet s) {limit k : Nat}
    {cursor : Option String} (hlimit : 0 < limit)
    (hstands : Standing w (listed s.mem.kv owner link) cursor k) (t : Nat) :
    After (calm core t) (fun x m' =>
          m' = s.mem ∧
          x = .ok (window (listed s.mem.kv owner link) k limit, nextCursor w
                  (listed s.mem.kv owner link) k limit))
      (Events.listPage w owner link (Events.pageOptions limit cursor)) s.mem := by
  have hids := listed_ids h owner link
  have hnodup : ((listed s.mem.kv owner link).map (·.eventId)).Nodup := by
    rw [hids]
    exact indexed_nodup h hquiet owner link
  obtain ⟨c, hopts, hstart⟩ := hstands.start hnodup hlimit
  rw [hids] at hstart
  have hlist := list_reads core h limit hstart t
  unfold Events.listPage
  rw [hopts]
  refine after_js_bind (hlist.mono ?_)
  rintro x m' ⟨rfl, rfl⟩
  refine ⟨rfl, ?_⟩
  rw [nextCursor]
  by_cases hmore : k + limit < (listed s.mem.kv owner link).length
  · rw [if_pos hmore, if_pos hmore, window_last hlimit hmore]
    obtain ⟨ev, hev⟩ : ∃ ev, (listed s.mem.kv owner link)[k + limit - 1]? = some ev :=
      ⟨_, List.getElem?_eq_getElem (by omega)⟩
    rw [hev]
    rfl
  · rw [if_neg hmore, if_neg hmore]
    rfl

/-- Where the next page starts. -/
theorem standing_next {log : List EventRecord} {k n : Nat} (hn : 0 < n) {c : String}
    (h : nextCursor w log k n = some c) : k + n < log.length ∧ Standing w log (some c) (k + n) := by
  unfold nextCursor at h
  split at h
  · obtain ⟨ev, hev, rfl⟩ := Option.map_eq_some_iff.mp h
    exact ⟨‹_›, .inr ⟨k + n - 1, ev, by omega, hev, rfl⟩⟩
  · cases h

/-! ## Growth -/

section

variable {s s' : LogState Snap} {e : Event (sdk Snap) Fate} {c : EventRecord}
  {k : (sdk Snap).Ans e.op → Proc (sdk Snap) (Except Err EventRecord)}

/-- An append does not touch a stored event. -/
theorem stored_fires (h : Inv s) (hf : Pool.Fires (appends core) s e c k s') (hok : Completes s e)
    {o i : Id} {r : EventRecord} (hr : s.mem.kv.lookup (.event o i) = some r) :
    s'.mem.kv.lookup (.event o i) = some r := by
  obtain ⟨a, ha, hmay, -⟩ := view_self h.conforms hf
  rw [kv_of_fires (S := appends core) rfl hf]
  obtain ⟨t, op, x, f⟩ := e
  cases op with
  | set key v =>
    cases key with
    | event o' i' =>
      obtain ⟨rfl, rfl, rfl, hph⟩ := hmay
      have hnone := h.absent t a ha hph hok.1
      simp only [effect]
      split
      · have hkey : Key.event o i ≠ .event a.1.ownerAccountId a.1.eventId := by
          rintro ⟨⟩
          rw [hnone] at hr
          cases hr
        rw [AList.lookup_insert_ne hkey, hr]
      · exact hr
    | eventIndex o' l' =>
      simp only [effect]
      split
      · rw [lookup_insert_index, hr]
      · exact hr
    | _ => exact hmay.elim
  | get key => exact hr
  | _ => exact hmay.elim

theorem stored_run {ls : List (Label Fate EventRecord)}
    (hrun : ((appends core).lts completeAppends).Run s ls s') (h : Inv s) {o i : Id}
    {r : EventRecord} (hr : s.mem.kv.lookup (.event o i) = some r) :
    s'.mem.kv.lookup (.event o i) = some r := by
  have hkeeps :=
    hrun.keeps (J := fun s₁ => Inv s₁ ∧ s₁.mem.kv.lookup (.event o i) = some r) ?_ ⟨h, hr⟩
  · exact hkeeps.2
  · rintro s₁ lab s₂ ⟨h₁, hr₁⟩ hstep
    refine ⟨(inv_inductive core).step s₁ lab s₂ h₁ hstep, ?_⟩
    obtain ⟨ev, -, rfl⟩ | ⟨e, c, k, hf, hok⟩ := System.step_cases hstep
    · exact hr₁
    · exact stored_fires h₁ hf hok hr₁

/-- The log of a link only grows at its end. -/
theorem listed_grows (owner link : Id) {ls : List (Label Fate EventRecord)}
    (hrun : ((appends core).lts completeAppends).Run s ls s') (h : Inv s) :
    listed s.mem.kv owner link <+: listed s'.mem.kv owner link := by
  obtain ⟨more, hmore⟩ := run_grows hrun h owner link
  have hsame :
      (indexed s.mem.kv owner link).filterMap (fun i => s'.mem.kv.lookup (.event owner i)) =
      listed s.mem.kv owner link := by
    refine List.filterMap_congr fun i hi => ?_
    obtain ⟨r, hr, -⟩ := h.known owner link i hi
    rw [hr, stored_run hrun h hr]
  refine ⟨more.filterMap fun i => s'.mem.kv.lookup (.event owner i), ?_⟩
  rw [← hsame, ← List.filterMap_append, hmore]
  rfl

end

theorem Standing.grows {log log' : List EventRecord} {cursor : Option String} {k : Nat}
    (h : Standing w log cursor k) (hpre : log <+: log') : Standing w log' cursor k := by
  rcases h with ⟨rfl, rfl⟩ | ⟨j, ev, rfl, hev, rfl⟩
  · exact .inl ⟨rfl, rfl⟩
  · refine .inr ⟨j, ev, rfl, ?_, rfl⟩
    obtain ⟨hlt, -⟩ := List.getElem?_eq_some_iff.mp hev
    obtain ⟨more, rfl⟩ := hpre
    rw [List.getElem?_append_left hlt, hev]

/-! ## All pages -/

theorem page_eq {s : LogState Snap} (h : Inv s) (hquiet : Quiet s) {limit k : Nat}
    {cursor next : Option String} {items : List EventRecord} (hlimit : 0 < limit)
    (hstands : Standing w (listed s.mem.kv owner link) cursor k)
    (hpage : Page core w owner link s limit cursor items next) :
    items = window (listed s.mem.kv owner link) k limit ∧
    next = nextCursor w (listed s.mem.kv owner link) k limit := by
  obtain ⟨t, m', hends⟩ := hpage
  obtain ⟨-, hx⟩ := after_iff_ends.mp (page_reads h hquiet hlimit hstands t) _ _ hends
  rw [Except.ok.injEq, Prod.mk.injEq] at hx
  exact hx

/-- Two windows in a row. -/
theorem window_append {log log' : List EventRecord} {k n k' : Nat} (hpre : log <+: log')
    (hn : k + n ≤ log.length) (hk : k + n ≤ k') :
    window log k n ++ (log'.take k').drop (k + n) = (log'.take k').drop k := by
  obtain ⟨more, rfl⟩ := hpre
  have hhead : window log k n = (((log ++ more).take k').drop k).take n := by
    rw [window, List.drop_take, List.take_take, Nat.min_eq_left (by omega),
      List.drop_append_of_le_length (by omega),
      List.take_append_of_le_length (by rw [List.length_drop]; omega)]
  rw [hhead, ← List.drop_drop, List.take_append_drop]

/-- The pages read from position `k` on are what the log has from there to the
position of the next cursor, or to its end. -/
theorem pages_cut {limits : Nat → Nat} {s s' : LogState Snap} {cursor next : Option String}
    {pages : List (List EventRecord)}
    (hpages : Pages core w owner link limits s cursor pages s' next) :
    Inv s → Quiet s → (∀ j, 0 < limits j) →
    ∀ {k : Nat}, Standing w (listed s.mem.kv owner link) cursor k →
      k ≤ (listed s.mem.kv owner link).length →
      Inv s' ∧ Quiet s' ∧ listed s.mem.kv owner link <+: listed s'.mem.kv owner link ∧
      pages.length ≤ pages.flatten.length + 1 ∧
      ∃ k', k ≤ k' ∧ pages.flatten = ((listed s'.mem.kv owner link).take k').drop k ∧
        (next = none → (listed s'.mem.kv owner link).length ≤ k') := by
  induction hpages with
  | @last limits s cursor next items hpage =>
    intro h hquiet hlimits k hstands hk
    obtain ⟨rfl, rfl⟩ := page_eq h hquiet (hlimits 0) hstands hpage
    refine ⟨h, hquiet, List.prefix_refl _, by simp, k + limits 0, by omega, ?_, fun hnext => ?_⟩
    · rw [List.flatten_singleton, window, List.drop_take, Nat.add_sub_cancel_left]
    · by_contra hlt
      rw [nextCursor, if_pos (by omega), List.getElem?_eq_getElem (by omega)] at hnext
      cases hnext
  | @more limits s s₁ s' cursor next c items pages hpage hmore _ ih =>
    intro h hquiet hlimits k hstands hk
    obtain ⟨rfl, hnext⟩ := page_eq h hquiet (hlimits 0) hstands hpage
    obtain ⟨hlt, hstands'⟩ := standing_next (hlimits 0) hnext.symm
    obtain ⟨⟨ls, hrun⟩, hquiet₁⟩ := hmore
    have h₁ : Inv s₁ := hrun.keeps (inv_inductive core).step h
    have hpre := listed_grows owner link hrun h
    have hlen := hpre.length_le
    obtain ⟨h', hquiet', hpre', hcount, k', hk', hflat, hend⟩ :=
      ih h₁ hquiet₁ (fun j => hlimits (j + 1)) (hstands'.grows hpre) (by omega)
    refine ⟨h', hquiet', hpre.trans hpre', ?_, k', by omega, ?_, hend⟩
    · have hfull : (window (listed s.mem.kv owner link) k (limits 0)).length = limits 0 := by
        rw [window, List.length_take, List.length_drop]
        omega
      have hpos := hlimits 0
      rw [List.flatten_cons, List.length_append, List.length_cons, hfull]
      omega
    · rw [List.flatten_cons, hflat]
      exact window_append (hpre.trans hpre') (by omega) hk'

/-- A page read returns. -/
theorem page_exists (core : Core Snap) (w : Wording) (owner link : Id) (s : LogState Snap)
    (limit : Nat) (cursor : Option String) :
    ∃ items next, Page core w owner link s limit cursor items next := by
  cases hopts : Events.normalizeListOptions (Events.pageOptions limit cursor) with
  | mk n c =>
    let ids := indexed s.mem.kv owner link
    have hlist : ∃ items next,
        Ends (calm core 0) (Events.listByPeerLinkId owner link n c) s.mem
          (.ok (items, next)) s.mem := by
      cases n with
      | some n =>
        obtain ⟨items, hread⟩ :=
          ends_readAll core 0 s.mem owner ((ids.drop (Events.pageStart ids c)).take n)
        exact ⟨items, _, Ends.js_bind (ends_get s.mem _) (Ends.js_bind hread (.ret _ _))⟩
      | none =>
        obtain ⟨items, hread⟩ := ends_readAll core 0 s.mem owner (ids.drop (Events.pageStart ids c))
        exact ⟨items, _, Ends.js_bind (ends_get s.mem _) (Ends.js_bind hread (.ret _ _))⟩
    obtain ⟨items, next, hlist⟩ := hlist
    refine ⟨items, next.bind fun _ => items.getLast?.map w.text, 0, s.mem, ?_⟩
    unfold Events.listPage
    rw [hopts]
    exact Ends.js_bind hlist (.ret _ _)

/-- On a log that does not grow, the cursor becomes null. -/
theorem pages_end (core : Core Snap) {s : LogState Snap} (h : Inv s) (hquiet : Quiet s) (n : Nat) :
    ∀ {limits : Nat → Nat} {cursor : Option String} {k : Nat}, (∀ j, 0 < limits j) →
      Standing w (listed s.mem.kv owner link) cursor k →
      (listed s.mem.kv owner link).length - k ≤ n →
      ∃ pages, Pages core w owner link limits s cursor pages s none := by
  induction n with
  | zero =>
    intro limits cursor k hlimits hstands hn
    obtain ⟨items, next, hpage⟩ := page_exists core w owner link s (limits 0) cursor
    obtain ⟨-, rfl⟩ := page_eq h hquiet (hlimits 0) hstands hpage
    rw [nextCursor, if_neg (by omega)] at hpage
    exact ⟨_, .last hpage⟩
  | succ n ih =>
    intro limits cursor k hlimits hstands hn
    obtain ⟨items, next, hpage⟩ := page_exists core w owner link s (limits 0) cursor
    have hnext := (page_eq h hquiet (hlimits 0) hstands hpage).2
    cases next with
    | none => exact ⟨_, .last hpage⟩
    | some c =>
      obtain ⟨hlt, hstands'⟩ := standing_next (hlimits 0) hnext.symm
      have hpos := hlimits 0
      obtain ⟨pages, hpages⟩ := ih (fun j => hlimits (j + 1)) hstands' (by omega)
      exact ⟨_, .more hpage ⟨⟨[], .nil s⟩, hquiet⟩ hpages⟩

/-- **Event pagination**: on a log that appends have left, whatever the
positive limits are, following the cursor from the first page ends, with the
events of the link, each once and in append order. With appends between the
pages, what was read so far is always the beginning of that log, and when the
cursor is null it is all of it: every event that was there at the start has
been returned once. -/
theorem pages_exact (core : Core Snap) (w : Wording) (owner link : Id) (s : LogState Snap)
    (hr : ((appends core).lts completeAppends).Reachable s) (hquiet : Quiet s) (limits : Nat → Nat)
    (hlimits : ∀ j, 0 < limits j) :
    (∃ pages, Pages core w owner link limits s none pages s none ∧
        LinkLog core owner link s pages.flatten) ∧
    ∀ pages s' next, Pages core w owner link limits s none pages s' next →
      pages.length ≤ pages.flatten.length + 1 ∧
      (∃ rest, LinkLog core owner link s' (pages.flatten ++ rest) ∧ (next = none → rest = [])) ∧
      (next = none →
        ∀ ev, ev.ownerAccountId = owner → ev.peerLinkId = link →
          s.mem.kv.lookup (.event owner ev.eventId) = some ev → pages.flatten.count ev = 1) := by
  have h : Inv s := (inv_inductive core).reachable s hr
  have hstart : Standing w (listed s.mem.kv owner link) none 0 := .inl ⟨rfl, rfl⟩
  have hall : ∀ pages s' next, Pages core w owner link limits s none pages s' next →
      Inv s' ∧ Quiet s' ∧ listed s.mem.kv owner link <+: listed s'.mem.kv owner link ∧
      pages.length ≤ pages.flatten.length + 1 ∧
        ∃ k', pages.flatten = (listed s'.mem.kv owner link).take k' ∧
        (next = none → (listed s'.mem.kv owner link).length ≤ k') := by
    intro pages s' next hpages
    obtain ⟨h', hquiet', hpre, hcount, k', -, hflat, hend⟩ :=
      pages_cut hpages h hquiet hlimits hstart (Nat.zero_le _)
    exact ⟨h', hquiet', hpre, hcount, k', hflat, hend⟩
  refine ⟨?_, fun pages s' next hpages => ?_⟩
  · obtain ⟨pages, hpages⟩ := pages_end core h hquiet _ hlimits hstart (Nat.le_refl _)
    obtain ⟨-, -, -, -, k', hflat, hend⟩ := hall pages s none hpages
    refine ⟨pages, hpages, ?_⟩
    rw [hflat, List.take_of_length_le (hend rfl)]
    exact listed_log h hquiet
  · obtain ⟨h', hquiet', hpre, hcount, k', hflat, hend⟩ := hall pages s' next hpages
    have hlog : LinkLog core owner link s' (listed s'.mem.kv owner link) := listed_log h' hquiet'
    refine ⟨hcount, ⟨(listed s'.mem.kv owner link).drop k', ?_,
      fun hnext => List.drop_eq_nil_of_le (hend hnext)⟩, ?_⟩
    · rw [hflat, List.take_append_drop]
      exact hlog
    · intro hnext ev ho hl hev
      have hmem : ev ∈ listed s'.mem.kv owner link :=
        hpre.subset ((mem_listed h hquiet).mpr ⟨ho, hl, hev⟩)
      rw [hflat, List.take_of_length_le (hend hnext)]
      exact List.count_eq_one_of_mem hlog.once hmem

/-! ## Outside that discipline -/

/-- A page holds listed events only, whatever left the log. -/
theorem page_listed {s : LogState Snap} {limit : Nat} {cursor next : Option String}
    {items : List EventRecord} (hpage : Page core w owner link s limit cursor items next) :
    items ⊆ listed s.mem.kv owner link := by
  obtain ⟨t, m', hends⟩ := hpage
  have hafter : After (calm core t) (fun x _ => ∀ items next, x = .ok (items, next) →
      items ⊆ listed s.mem.kv owner link) (Events.listPage w owner link
        (Events.pageOptions limit cursor)) s.mem := by
    cases hopts : Events.normalizeListOptions (Events.pageOptions limit cursor) with
    | mk n c =>
      unfold Events.listPage
      rw [hopts]
      refine after_js_bind (after_js_bind (calm_get (after_js_bind ((calm_readAll_eq _).mono ?_))))
      rintro x m ⟨rfl, rfl⟩ items next hx
      rw [Except.ok.injEq, Prod.mk.injEq] at hx
      rw [← hx.1]
      -- with a limit or without, the ids read are ids of the index
      cases n with
      | some n => exact (((List.take_sublist n _).trans (List.drop_sublist _ _)).filterMap _).subset
      | none => exact ((List.drop_sublist _ _).filterMap _).subset
  exact after_iff_ends.mp hafter _ _ hends items next rfl

/-- What a log has seen: every step of a run adds to it. -/
def seen (s : LogState Snap) : Nat := s.log.length + s.threads.length

theorem seen_run {R : LogRules Snap} {s s' : LogState Snap} {ls : List (Label Fate EventRecord)}
    (hrun : ((appends core).lts R).Run s ls s') : s = s' ∨ seen s < seen s' := by
  induction hrun with
  | nil s => exact .inl rfl
  | @cons s s₁ s' l ls hstep _ ih =>
    have hlt : seen s < seen s₁ := by
      obtain ⟨ev, -, rfl⟩ | ⟨e, c, k, hf, -⟩ := System.step_cases hstep
      · simp only [seen, Pool.spawn, List.length_append, List.length_singleton]
        omega
      · simp only [seen, hf.log, hf.threads, List.length_cons, List.length_set]
        omega
    refine .inr ?_
    rcases ih with rfl | hlt'
    · exact hlt
    · omega

theorem seen_pages {limits : Nat → Nat} {s s' : LogState Snap} {cursor next : Option String}
    {pages : List (List EventRecord)}
    (hpages : Pages core w owner link limits s cursor pages s' next) :
    s = s' ∨ seen s < seen s' := by
  induction hpages with
  | last => exact .inl rfl
  | more _ hmore _ ih =>
    obtain ⟨⟨ls, hrun⟩, -⟩ := hmore
    rcases seen_run hrun with rfl | hlt
    · exact ih
    · rcases ih with rfl | hlt'
      · exact .inr hlt
      · exact .inr (by omega)

/-- Pages of a log that nothing is appended to hold listed events only. -/
theorem pages_listed {limits : Nat → Nat} {s s' : LogState Snap} {cursor next : Option String}
    {pages : List (List EventRecord)}
    (hpages : Pages core w owner link limits s cursor pages s' next) :
    s' = s → pages.flatten ⊆ listed s.mem.kv owner link := by
  induction hpages with
  | last hpage =>
    intro _
    rw [List.flatten_singleton]
    exact page_listed hpage
  | @more limits s s₁ s' cursor next c items pages hpage hmore hrest ih =>
    rintro rfl
    obtain ⟨⟨ls, hrun⟩, -⟩ := hmore
    have hsame : s₁ = s' := by
      rcases seen_run hrun with heq | hlt
      · exact heq.symm
      · rcases seen_pages hrest with heq | hlt'
        · exact heq
        · omega
    rw [List.flatten_cons]
    exact List.append_subset.mpr ⟨page_listed hpage, hsame ▸ ih hsame.symm⟩

namespace Example

open EventLog.Example Counting

/-- Ids are written without spaces around them. -/
def plain : Wording := ⟨fun ev => ev.eventId.val, fun ev => trim_of_isId ev.eventId.ok⟩

def both (s : LogState Nat) : Bool := ended s && listed s.mem.kv a d = [event b, event c]

def healthy (e : Event (sdk Nat) Fate) : Bool :=
  match e.fate with
  | .fail _ => false
  | .landFail _ => false
  | _ => true

theorem healthy_spec {e : Event (sdk Nat) Fate} (h : healthy e = true) (f : Fault) :
    e.fate ≠ .fail f ∧ e.fate ≠ .landFail f := by
  unfold healthy at h
  constructor <;> · intro heq; rw [heq] at h; cases h

/-- Both appends have returned without a failure, and one of their events is
not listed. -/
def overlapped (s : LogState Nat) : Bool :=
  ended s && s.log.all healthy && returned s 0 (event b) && returned s 1 (event c) &&
    s.mem.kv.lookup (.event a b) = some (event b) && event b ∉ listed s.mem.kv a d

end Example

open Example EventLog.Example Counting in
/-- Two appends that overlap, without any storage failure: both have read the
empty index, and the later index write drops the first one's event. It is
stored and acknowledged, and no reading of the pages returns it. -/
theorem pages_miss : ∃ s, ((appends Counting.core).lts anyAppends).Reachable s ∧ Quiet s ∧
    (∀ e ∈ s.log, ∀ f, e.fate ≠ .fail f ∧ e.fate ≠ .landFail f) ∧
    Acknowledged s (event b) ∧ Acknowledged s (event c) ∧
    ∀ limits pages, Pages Counting.core plain a d limits s none pages s none →
      event b ∉ pages.flatten ∧ ¬ LinkLog Counting.core a d s pages.flatten := by
  obtain ⟨s, hr, hs⟩ := System.reachable_of_play (S := appends Counting.core) anyJudge smooth
    [.call (event b), .call (event c), .go 0 3, .go 1 3, .go 0 1, .go 1 1] (m := .ofStore ∅ [])
    (P := overlapped) logged_empty (by decide +kernel)
  simp only [overlapped, Bool.and_eq_true, decide_eq_true_iff, List.all_eq_true] at hs
  obtain ⟨⟨⟨⟨⟨hend, hlog⟩, hb⟩, hc⟩, hstored⟩, hnot⟩ := hs
  refine ⟨s, hr, ended_spec hend, fun e he => healthy_spec (hlog e he), returned_spec hb,
    returned_spec hc, ?_⟩
  intro limits pages hpages
  have hmiss : event b ∉ pages.flatten := fun hin => hnot (pages_listed hpages rfl hin)
  exact ⟨hmiss, fun hall => hmiss ((hall.all (event b)).mpr ⟨rfl, rfl, hstored⟩)⟩

open Example EventLog.Example Counting in
/-- Two events, in pages of one. -/
theorem pages_exact_two :
    ∃ s pages, ((appends Counting.core).lts completeAppends).Reachable s ∧ Quiet s ∧
      listed s.mem.kv a d = [event b, event c] ∧
      Pages Counting.core plain a d (fun _ => 1) s none pages s none ∧
      LinkLog Counting.core a d s pages.flatten := by
  obtain ⟨s, hr, hs⟩ := System.reachable_of_play (S := appends Counting.core) judge smooth
    [.call (event b), .go 0 4, .call (event c),
    .go 1 4] (m := .ofStore ∅ []) (P := both) logged_empty (by decide +kernel)
  simp only [both, Bool.and_eq_true, decide_eq_true_iff] at hs
  have hquiet := ended_spec hs.1
  obtain ⟨⟨pages, hpages, hlog⟩, -⟩ :=
    pages_exact Counting.core plain a d s hr hquiet (fun _ => 1) (fun _ => Nat.one_pos)
  exact ⟨s, pages, hr, hquiet, hs.2, hpages, hlog⟩

end RezSdk.L4.EventPaging
